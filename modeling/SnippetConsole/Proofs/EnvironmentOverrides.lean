/-
# What the environment overrides

Each of five variables has a field of the settings to itself.

| field | its variable asks for |
| --- | --- |
| workspace path, compiler program, diagnostics filter | any text that is not empty |
| number of entries | a number from 1 to 1000000 that is spelled |
| revealing on errors | a truth value that is spelled |

A field takes what is asked for it, and stays as it was if nothing is (`Overridden`). As what is asked
for does not depend on the settings, asking twice is asking once (`withOverrides_withOverrides`), and
as no number asked for is zero, settings within the bounds stay within them
(`violation?_withOverrides_eq_none_iff`).

Loading checks the bounds last (`load_eq_ok_iff_stored`). So a file whose number of entries is zero is
refused, unless the environment asks for another number; its level of optimisation nothing can mend.
-/

import SnippetConsole.Proofs.SettingsInForce
import SnippetConsole.Proofs.SpelledValues

namespace SnippetConsole
namespace Settings

/-! ### What is asked for -/

/-- A variable is set to a text that is not empty. -/
def Asks (env : Environment) (name text : String) : Prop :=
  env.get? name = some (Text.encode text) ∧ text ≠ ""

/-- The number of entries that is asked for. -/
def AsksForEntries (env : Environment) (n : Nat) : Prop :=
  ∃ text, Asks env "LIVECODE_MAX_HISTORY" text ∧ SpellsNumber text n ∧ 1 ≤ n ∧ n ≤ 1000000

/-- Whether it is asked for that errors reveal the log. -/
def AsksForShown (env : Environment) (shown : Bool) : Prop :=
  ∃ text, Asks env "LIVECODE_SHOW_ON_ERROR" text ∧ SpellsTruth text shown

theorem given?_eq_some_iff {env : Environment} {name text : String} :
    env.given? name = some text ↔ Asks env name text := by
  simp [Environment.given?, Environment.text?, Asks, Option.bind_eq_some_iff,
    Text.decode?_eq_some_iff]

/-- The number of entries that is read from the environment. -/
def entriesGiven? (env : Environment) : Option Nat :=
  (env.given? "LIVECODE_MAX_HISTORY").bind (numberInRange? · leastOverride greatestOverride)

/-- Whether errors reveal the log, as it is read from the environment. -/
def shownGiven? (env : Environment) : Option Bool :=
  (env.given? "LIVECODE_SHOW_ON_ERROR").bind truthOfWord?

theorem entriesGiven?_eq_some_iff {env : Environment} {n : Nat} :
    entriesGiven? env = some n ↔ AsksForEntries env n := by
  simp only [entriesGiven?, Option.bind_eq_some_iff, given?_eq_some_iff,
    numberInRange?_eq_some_iff, AsksForEntries, leastOverride, greatestOverride]
  refine exists_congr fun text => and_congr_right fun _ => and_congr_right fun _ => ?_
  exact ⟨And.right, fun h => ⟨h.2.trans_lt (by decide), h⟩⟩

theorem shownGiven?_eq_some_iff {env : Environment} {shown : Bool} :
    shownGiven? env = some shown ↔ AsksForShown env shown := by
  simp only [shownGiven?, Option.bind_eq_some_iff, given?_eq_some_iff, truthOfWord?_eq_some_iff,
    AsksForShown]

/-! ### What becomes of the settings -/

/-- A field takes the value that is asked for, and stays as it was if none is. -/
structure Takes {α : Type} (asked : α → Prop) (old new : α) : Prop where
  taken : ∀ a, asked a → new = a
  kept : (∀ a, ¬asked a) → new = old

theorem takes_getD {α : Type} {asked : α → Prop} {o : Option α} (h : ∀ a, o = some a ↔ asked a)
    (old : α) : Takes asked old (o.getD old) where
  taken a ha := by rw [(h a).2 ha, Option.getD_some]
  kept hnone := by
    rcases ho : o with _ | a
    · rfl
    · exact absurd ((h a).1 ho) (hnone a)

/-- A field for a text that may be missing takes the text of a variable. -/
theorem takes_text (env : Environment) (name : String) (old : Option String) :
    Takes (fun value => ∃ text, Asks env name text ∧ value = some text) old
      (((env.given? name).map some).getD old) := by
  refine takes_getD (fun value => ?_) old
  rw [Option.map_eq_some_iff]
  exact exists_congr fun text => and_congr given?_eq_some_iff eq_comm

/-- A number of entries that is asked for fits in the field. -/
theorem AsksForEntries.toNat_ofNat {env : Environment} {n : Nat} (h : AsksForEntries env n) :
    (UInt64.ofNat n).toNat = n := by
  obtain ⟨text, -, -, -, hle⟩ := h
  exact UInt64.toNat_ofNat_of_lt' (hle.trans_lt (by decide))

/-- The field for the number of entries takes the number of its variable. -/
theorem takes_entries (env : Environment) (old : UInt64) :
    Takes (fun n => AsksForEntries env n.toNat) old
      (((entriesGiven? env).map UInt64.ofNat).getD old) := by
  refine takes_getD (fun n => ?_) old
  rw [Option.map_eq_some_iff]
  constructor
  · rintro ⟨k, hk, rfl⟩
    have hasks := entriesGiven?_eq_some_iff.1 hk
    rwa [hasks.toNat_ofNat]
  · intro h
    exact ⟨n.toNat, entriesGiven?_eq_some_iff.2 h, UInt64.ofNat_toNat⟩

/-- Five fields take what the environment asks for, each from its own variable, and all others stay
as they were. -/
structure Overridden (env : Environment) (s s' : Settings) : Prop where
  path : Takes (fun path => ∃ text, Asks env "LIVECODE_WORKSPACE" text ∧ path = some text)
    s.workspace.path s'.workspace.path
  program : Takes (fun program => ∃ text, Asks env "LIVECODE_RUSTC" text ∧ program = some text)
    s.toolchain.program s'.toolchain.program
  entries : Takes (fun n => AsksForEntries env n.toNat)
    s.console.maxHistoryLength s'.console.maxHistoryLength
  shown : Takes (AsksForShown env) s.console.showOnError s'.console.showOnError
  level : Takes (Asks env "LIVECODE_LOG_LEVEL") s.logging.level s'.logging.level
  others : { s' with
      workspace.path := s.workspace.path
      toolchain.program := s.toolchain.program
      console.maxHistoryLength := s.console.maxHistoryLength
      console.showOnError := s.console.showOnError
      logging.level := s.logging.level } = s

/-- **The settings with what the environment says,** field by field. -/
theorem withOverrides_eq (env : Environment) (s : Settings) :
    s.withOverrides env = { s with
      workspace.path := ((env.given? "LIVECODE_WORKSPACE").map some).getD s.workspace.path
      toolchain.program := ((env.given? "LIVECODE_RUSTC").map some).getD s.toolchain.program
      console.maxHistoryLength :=
        ((entriesGiven? env).map UInt64.ofNat).getD s.console.maxHistoryLength
      console.showOnError := (shownGiven? env).getD s.console.showOnError
      logging.level := (env.given? "LIVECODE_LOG_LEVEL").getD s.logging.level } := by
  unfold withOverrides
  rw [← entriesGiven?.eq_1, ← shownGiven?.eq_1]
  cases env.given? "LIVECODE_WORKSPACE" <;> cases env.given? "LIVECODE_RUSTC" <;>
    cases entriesGiven? env <;> cases shownGiven? env <;> cases env.given? "LIVECODE_LOG_LEVEL" <;>
    rfl

/-- **Each variable has its field, and only that.** -/
theorem overridden_withOverrides (env : Environment) (s : Settings) :
    Overridden env s (s.withOverrides env) := by
  rw [withOverrides_eq]
  exact {
    path := takes_text env _ _
    program := takes_text env _ _
    entries := takes_entries env _
    shown := takes_getD (fun _ => shownGiven?_eq_some_iff) _
    level := takes_getD (fun _ => given?_eq_some_iff) _
    others := rfl }

/-- **Asking twice is asking once.** -/
theorem withOverrides_withOverrides (env : Environment) (s : Settings) :
    (s.withOverrides env).withOverrides env = s.withOverrides env := by
  have hagain {α : Type} (o : Option α) (a : α) : o.getD (o.getD a) = o.getD a := by
    cases o with
    | none => rfl
    | some b => rfl
  simp only [withOverrides_eq, hagain]

/-! ### The bounds -/

/-- The bounds that settings keep. -/
theorem violation?_eq_none_iff {s : Settings} :
    s.violation? = none ↔ 1 ≤ s.console.maxHistoryLength ∧ s.toolchain.optLevel ≤ 3 := by
  have hentries : s.console.maxHistoryLength = 0 ↔ ¬1 ≤ s.console.maxHistoryLength := by
    rw [UInt64.le_iff_toNat_le, ← UInt64.toNat_inj]
    simp
  unfold violation?
  split
  · rename_i hzero
    exact ⟨nofun, fun h => absurd h.1 (hentries.1 hzero)⟩
  · rename_i hzero
    have hroom := not_not.1 fun h => hzero (hentries.2 h)
    split
    · rename_i hlevel
      exact ⟨nofun, fun h => absurd h.2 (UInt8.not_le.2 hlevel)⟩
    · rename_i hlevel
      exact ⟨fun _ => ⟨hroom, UInt8.not_lt.1 hlevel⟩, fun _ => rfl⟩

/-- What the environment says about the bounds: it may ask for entries, and never for none. -/
theorem violation?_withOverrides_eq_none_iff {env : Environment} {s : Settings} :
    (s.withOverrides env).violation? = none ↔
      (1 ≤ s.console.maxHistoryLength ∨ ∃ n, AsksForEntries env n) ∧ s.toolchain.optLevel ≤ 3 := by
  obtain ⟨-, -, hentries, -, -, hothers⟩ := overridden_withOverrides env s
  have hlevel : (s.withOverrides env).toolchain.optLevel = s.toolchain.optLevel :=
    congrArg (·.toolchain.optLevel) hothers
  rw [violation?_eq_none_iff, hlevel]
  refine and_congr_left fun _ => ?_
  by_cases hasked : ∃ n, AsksForEntries env n
  · obtain ⟨n, hn⟩ := hasked
    have hnew := hentries.taken (UInt64.ofNat n) (by rwa [hn.toNat_ofNat])
    have hpos : 1 ≤ UInt64.ofNat n := by
      obtain ⟨text, -, -, hpos, -⟩ := id hn
      rw [UInt64.le_iff_toNat_le, hn.toNat_ofNat]
      exact hpos
    rw [hnew]
    exact ⟨fun _ => .inr ⟨n, hn⟩, fun _ => hpos⟩
  · rw [hentries.kept fun n hn => hasked ⟨n.toNat, hn⟩]
    exact ⟨.inl, fun h => h.resolve_right hasked⟩

/-! ### The main statement -/

/-- **The environment overrides its own fields only, with accepted values only, and keeps settings
valid.** Five fields take what their variables ask for and stay as they were if these ask for nothing;
no other field changes. A second time nothing more changes. Settings within the bounds stay within
them. What is loaded from any file in any environment is within them: a level of optimisation that is
too high is refused, and so is a number of entries that is zero, unless the environment asks for
another one. -/
theorem environment_overrides_own_fields (env : Environment) (s : Settings) :
    Overridden env s (s.withOverrides env) ∧
    (s.withOverrides env).withOverrides env = s.withOverrides env ∧
    (s.violation? = none → (s.withOverrides env).violation? = none) ∧
    (∀ path m loaded, load path m = .ok loaded →
      1 ≤ loaded.console.maxHistoryLength ∧ loaded.toolchain.optLevel ≤ 3) ∧
    ∀ path m loaded, load path m = .ok loaded ↔
      ∃ read, Stored path m read ∧ loaded = read.withOverrides m.environment ∧
        (1 ≤ read.console.maxHistoryLength ∨ ∃ n, AsksForEntries m.environment n) ∧
        read.toolchain.optLevel ≤ 3 := by
  refine ⟨overridden_withOverrides env s, withOverrides_withOverrides env s, fun hvalid => ?_,
    fun path m loaded hload => ?_, fun path m loaded => ?_⟩
  · obtain ⟨hentries, hlevel⟩ := violation?_eq_none_iff.1 hvalid
    exact violation?_withOverrides_eq_none_iff.2 ⟨.inl hentries, hlevel⟩
  · exact violation?_eq_none_iff.1 (violation?_of_load hload)
  · rw [load_eq_ok_iff_stored]
    refine exists_congr fun read => and_congr_right fun _ => ?_
    rw [checked_eq_ok_iff, violation?_withOverrides_eq_none_iff]

/-- Settings that keep no entry. -/
def emptySettings : Settings := { standard with console.maxHistoryLength := 0 }

/-- An environment that asks for seven entries and for errors not to reveal the log, and not for a
diagnostics filter, as its variable is empty. -/
def quietEnvironment : Environment :=
  Environment.empty.set "LIVECODE_MAX_HISTORY" (Text.encode " +007 ")
    |>.set "LIVECODE_SHOW_ON_ERROR" (Text.encode "OFF\n")
    |>.set "LIVECODE_LOG_LEVEL" []

/-- A file with these settings loads in this environment, which takes nothing else from them. -/
theorem load_emptySettings :
    emptySettings.violation? = some .noHistory ∧ standard.violation? = none ∧
    (standard.withOverrides quietEnvironment).violation? = none ∧
    ∃ m loaded, Stored bareName m emptySettings ∧ load bareName m = .ok loaded ∧
      1 ≤ loaded.console.maxHistoryLength ∧ loaded.toolchain.optLevel ≤ 3 ∧
      loaded.console.maxHistoryLength = 7 ∧ loaded.console.showOnError = false ∧
      loaded.logging.level = "warn" := by
  have hentries : AsksForEntries quietEnvironment 7 :=
    ⟨" +007 ", ⟨rfl, by decide⟩, ⟨['0', '0', '7'], ['+', '0', '0', '7'],
      ⟨[' '], [' '], by decide, List.all_eq_true.1 rfl, List.all_eq_true.1 rfl⟩, .plus, by decide,
      List.all_eq_true.1 rfl, by decide⟩, by decide, by decide⟩
  have hshown : AsksForShown quietEnvironment false :=
    ⟨"OFF\n", ⟨rfl, by decide⟩, ['O', 'F', 'F'],
      ⟨[], ['\n'], by decide, nofun, List.all_eq_true.1 rfl⟩, by decide⟩
  have hlevel : ∀ text, ¬Asks quietEnvironment "LIVECODE_LOG_LEVEL" text := by
    rintro text ⟨hget, hne⟩
    have hempty : quietEnvironment.get? "LIVECODE_LOG_LEVEL" = some [] := rfl
    rw [hempty, Option.some.injEq] at hget
    exact hne (Text.encode_eq_nil_iff.1 hget.symm)
  obtain ⟨m', hsave⟩ := CommandLine.exists_save_bareName emptySettings (m := blankMachine) rfl rfl rfl
  have htext : ({ m' with environment := quietEnvironment } : Machine).textOf bareName
      = .ok emptySettings.fileText := by
    show m'.textOf bareName = _
    exact textOf_of_save FileTree.Tree.wellFormed_empty hsave
  have hstored : Stored bareName { m' with environment := quietEnvironment } emptySettings :=
    .file htext (ofFileText?_fileText _)
  obtain ⟨hover, -, hvalid, hbounds, hload⟩ :=
    environment_overrides_own_fields quietEnvironment emptySettings
  have hloaded := (hload bareName { m' with environment := quietEnvironment } _).2
    ⟨emptySettings, hstored, rfl, .inr ⟨7, hentries⟩, by decide⟩
  obtain ⟨hroom, hopt⟩ := hbounds _ _ _ hloaded
  refine ⟨rfl, rfl, ?_, _, _, hstored, hloaded, hroom, hopt, hover.entries.taken 7 hentries,
    hover.shown.taken false hshown, hover.level.kept hlevel⟩
  exact (environment_overrides_own_fields quietEnvironment standard).2.2.1 rfl

end Settings
end SnippetConsole
