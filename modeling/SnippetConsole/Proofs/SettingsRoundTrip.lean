/-
# Saved settings load back

What is written of settings reads back as those settings, whatever the standard ones say
(`restores_settings`): each field that is not set is absent, and absent from the standard document
too, and no member is null. So the text of a settings file stands for the settings it was made of
(`ofFileText?_fileText`), and a saved file loads as them, with what the environment says
(`load_of_save`).
-/

import SnippetConsole.Proofs.ActSteps
import SnippetConsole.Proofs.JsonRoundTrip
import SnippetConsole.Proofs.SettingsDefaults
import SnippetConsole.Proofs.TreeChange

namespace SnippetConsole
namespace Json

variable {α ρ : Type}

/-- Nothing is left out of the value, and it is not null. -/
structure Value.Full (v : Value) : Prop where
  ne_null : v.isNull = false
  withoutNulls_eq : v.withoutNulls = v

/-- A sorted object is full if its sorted values are. -/
theorem Value.full_sorted_object {ms : List (String × Value)} (h : ∀ m ∈ ms, m.2.sorted.Full) :
    (Value.object ms).sorted.Full := by
  have hall : ∀ ms : Members, (∀ m ∈ ms, m.2.Full) → membersWithoutNulls ms = ms := by
    intro ms hms
    induction ms with
    | nil => rfl
    | cons m ms ih =>
      obtain ⟨k, v⟩ := m
      obtain ⟨hv, hrest⟩ := List.forall_mem_cons.1 hms
      rw [membersWithoutNulls, if_neg (by simp [hv.ne_null]), hv.withoutNulls_eq, ih hrest]
  refine ⟨by rw [sorted]; rfl, ?_⟩
  rw [sorted, withoutNulls_object, hall]
  intro m hm
  rw [sortedMembers_eq] at hm
  obtain ⟨m', hm', rfl⟩ := List.mem_map.1 (mem_ofMembers hm)
  exact h m' hm'

/-- What is written reads back, with nothing that a merge would take for absent. -/
structure Restores (d : Decoder α) (write : α → Value) : Prop where
  read : ∀ a, d.read? (write a).sorted = some a
  full : ∀ a, (write a).sorted.Full

theorem restores_string : Restores .string .string := ⟨fun _ => rfl, fun _ => ⟨rfl, rfl⟩⟩

theorem restores_bool : Restores .bool .bool := ⟨fun _ => rfl, fun _ => ⟨rfl, rfl⟩⟩

theorem natural_ofNat {bound n : Nat} (hn : n < bound) (want : String) :
    (Decoder.natural bound want).ofValue (.ofNat n) = .ok n := by
  show Decoder.naturalOf bound want (.integer n) = _
  have hfits : (0 : Int) ≤ n ∧ (n : Int) < bound := by omega
  rw [Decoder.naturalOf, if_pos hfits, Int.toNat_natCast]

theorem restores_word : Restores .word fun n => .ofNat n.toNat where
  read n := by
    have hread := natural_ofNat (UInt64.toNat_lt_size n) "usize"
    show Decoder.read? _ (.ofNat n.toNat) = _
    rw [Decoder.word, Decoder.read?_map, Decoder.read?, hread]
    exact congrArg some UInt64.ofNat_toNat
  full _ := ⟨rfl, rfl⟩

theorem restores_byte : Restores .byte fun n => .ofNat n.toNat where
  read n := by
    have hread := natural_ofNat (UInt8.toNat_lt_size n) "u8"
    show Decoder.read? _ (.ofNat n.toNat) = _
    rw [Decoder.byte, Decoder.read?_map, Decoder.read?, hread]
    exact congrArg some UInt8.ofNat_toNat
  full _ := ⟨rfl, rfl⟩

/-- A list reads back if its items do. -/
theorem Restores.list {d : Decoder α} {write : α → Value} (h : Restores d write) :
    Restores (.list d) fun as => .array (as.map write) where
  read as := by
    have hitems := Decoder.read?_list_map d (g := id) h.read as
    rw [Value.sorted, sortedItems_eq, List.map_map]
    rw [List.map_id] at hitems
    exact hitems
  full as := ⟨by rw [Value.sorted]; rfl, by rw [Value.sorted]; simp [Value.withoutNulls]⟩

namespace Shape

variable {S : Shape ρ}

/-- A written object is read field by field. -/
theorem read?_sorted_object (hS : S.Independent) {ms : List (String × Value)}
    (hms : (keys ms).Nodup) (hthere : S.missing? (keys ms) = none) :
    S.decoder.read? (Value.object ms).sorted
      = readFields (sortedMembers ms) S.fields S.blank := by
  have hkeys : keys (sortedMembers ms) = keys ms := by
    rw [sortedMembers_eq, keys, List.map_map]
    rfl
  have hsorted : (keys (sortedMembers ms)).Nodup := hkeys ▸ hms
  have hmissing : S.missing? (keys (ofMembers (sortedMembers ms))) = none := by
    refine List.find?_eq_none.2 fun f hf => ?_
    have hf := List.find?_eq_none.1 hthere f hf
    have hmem := mem_keys_ofMembers hsorted (j := f.key)
    rw [hkeys] at hmem
    simpa [hmem] using hf
  rw [Value.sorted, read?_object hS (increasing_ofMembers _).nodup hmissing]
  refine readFields_congr hS.commutes fun f _ => ?_
  rw [effect, effect, get?_ofMembers hsorted]

theorem readFields_of_some {ms : Members} {key : String} {d : Decoder α} {put : α → ρ → ρ}
    {fs : List (Field ρ)} {r : ρ} {v : Value} {a : α} (hv : get? key ms = some v)
    (hread : d.read? v = some a) :
    readFields ms (.optional key d put :: fs) r = readFields ms fs (put a r) := by
  rw [readFields_cons, effect_optional, hv, Option.map_some, hread]
  rfl

theorem readFields_of_none {ms : Members} {f : Field ρ} {fs : List (Field ρ)} {r : ρ}
    (hv : get? f.key ms = none) : readFields ms (f :: fs) r = readFields ms fs r := by
  rw [readFields_cons, effect, hv]
  rfl

/-- A first member that fits can be put into the record before all others. -/
theorem readFields_member_of_some (hS : S.Independent) {ms : Members} {key : String}
    {d : Decoder α} {put : α → ρ → ρ} (hf : .optional key d put ∈ S.fields)
    (hnew : get? key ms = none) {v : Value} {a : α} (hread : d.read? v = some a) {r : ρ} :
    readFields ((key, v) :: ms) S.fields r = readFields ms S.fields (put a r) := by
  have hmember := readFields_cons_member hS.commutes hS.nodup hf hnew v r
  have hput : (Field.optional key d put).decoder.read? v = some (put a) := by
    refine (Decoder.read?_map put d v).trans ?_
    rw [hread, Option.map_some]
  rw [hput] at hmember
  exact hmember

end Shape
end Json

namespace Settings

open Json (Decoder Restores Shape Value restores_bool restores_byte restores_string restores_word)

theorem Reference.independent_shape : Reference.shape.Independent where
  nodup := by decide
  commutes := by
    simp only [Reference.shape, List.pairwise_cons]
    and_intros <;> simp [Json.Field.mandatory, Json.Field.commutes_map]

theorem Reference.restores : Restores Reference.shape.decoder Reference.toValue where
  read r := by
    rw [toValue, Shape.read?_sorted_object independent_shape (by simp) rfl]
    rfl
  full r := by
    refine Value.full_sorted_object ?_
    simp only [List.forall_mem_cons]
    exact ⟨restores_string.full r.name, restores_string.full r.path, nofun⟩

theorem restores_textList : Restores (.list .string) textList := restores_string.list

/-- A member for an optional text has the text, or is absent. -/
theorem full_optionalMember {key : String} {text : Option String} :
    ∀ m ∈ optionalMember key text, m.2.sorted.Full := by
  cases text with
  | none => exact nofun
  | some s =>
    rw [optionalMember, List.forall_mem_singleton]
    exact restores_string.full s

theorem Console.restores : Restores Console.shape.decoder Console.toValue where
  read c := by
    rw [toValue, Shape.read?_sorted_object independent_shape (by simp) rfl]
    exact (Shape.readFields_of_some rfl (restores_word.read c.maxHistoryLength)).trans rfl
  full c := by
    refine Value.full_sorted_object ?_
    simp only [List.forall_mem_cons]
    refine ⟨restores_word.full c.maxHistoryLength, restores_string.full c.formatString,
      ?_, ?_, ?_, ?_, ?_, ?_, nofun⟩
    all_goals exact restores_bool.full _

theorem Workspace.restores : Restores Workspace.shape.decoder Workspace.toValue where
  read w := by
    obtain ⟨path⟩ := w
    cases path with
    | none => rfl
    | some s => rfl
  full w := Value.full_sorted_object full_optionalMember

theorem Toolchain.restores : Restores Toolchain.shape.decoder Toolchain.toValue where
  read t := by
    obtain ⟨program, optLevel, extraArgs, references, libraryPaths, prelude⟩ := t
    have hothers (t : Toolchain) :
        Shape.readFields (Json.sortedMembers [
            ("optLevel", .ofNat optLevel.toNat),
            ("extraArgs", textList extraArgs),
            ("references", .array (references.map Reference.toValue)),
            ("libraryPaths", textList libraryPaths),
            ("prelude", textList prelude)]) Toolchain.shape.fields t
          = some ⟨t.program, optLevel, extraArgs, references, libraryPaths, prelude⟩ := by
      refine (Shape.readFields_of_none rfl).trans ?_
      refine (Shape.readFields_of_some rfl (restores_byte.read optLevel)).trans ?_
      refine (Shape.readFields_of_some rfl (restores_textList.read extraArgs)).trans ?_
      refine (Shape.readFields_of_some rfl (Reference.restores.list.read references)).trans ?_
      refine (Shape.readFields_of_some rfl (restores_textList.read libraryPaths)).trans ?_
      exact (Shape.readFields_of_some rfl (restores_textList.read prelude)).trans rfl
    cases program with
    | none =>
      rw [toValue, Shape.read?_sorted_object independent_shape (by simp [optionalMember]) rfl]
      exact hothers standard
    | some s =>
      rw [toValue, Shape.read?_sorted_object independent_shape (by simp [optionalMember]) rfl]
      exact (Shape.readFields_member_of_some independent_shape List.mem_cons_self rfl rfl).trans
        (hothers { standard with program := some s })
  full t := by
    refine Value.full_sorted_object (List.forall_mem_append.2 ⟨full_optionalMember, ?_⟩)
    simp only [List.forall_mem_cons]
    exact ⟨restores_byte.full t.optLevel, restores_textList.full t.extraArgs,
      Reference.restores.list.full t.references, restores_textList.full t.libraryPaths,
      restores_textList.full t.prelude, nofun⟩

theorem Logging.restores : Restores Logging.shape.decoder Logging.toValue where
  read l := rfl
  full l := by
    refine Value.full_sorted_object ?_
    simp only [List.forall_mem_cons]
    exact ⟨restores_string.full l.level, nofun⟩

/-- **Settings read back** from what is written of them. -/
theorem restores : Restores shape.decoder toValue where
  read s := by
    rw [toValue, Shape.read?_sorted_object independent_shape (by simp) rfl]
    refine (Shape.readFields_of_some rfl (restores_string.read s.version)).trans ?_
    refine (Shape.readFields_of_some rfl (Console.restores.read s.console)).trans ?_
    refine (Shape.readFields_of_some rfl (Workspace.restores.read s.workspace)).trans ?_
    refine (Shape.readFields_of_some rfl (Toolchain.restores.read s.toolchain)).trans ?_
    exact (Shape.readFields_of_some rfl (Logging.restores.read s.logging)).trans rfl
  full s := by
    refine Value.full_sorted_object ?_
    simp only [List.forall_mem_cons]
    exact ⟨restores_string.full s.version, Console.restores.full s.console,
      Workspace.restores.full s.workspace, Toolchain.restores.full s.toolchain,
      Logging.restores.full s.logging, nofun⟩

/-! ### The text of a settings file -/

theorem within_textList (depth : Nat) (ss : List String) : (textList ss).Within (depth + 1) := by
  refine .array fun v hv => ?_
  obtain ⟨s, -, rfl⟩ := List.mem_map.1 hv
  exact .string s

theorem within_optionalMember (depth : Nat) (key : String) (text : Option String) :
    ∀ m ∈ optionalMember key text, m.2.Within depth := by
  cases text with
  | none => exact nofun
  | some s =>
    rw [optionalMember, List.forall_mem_singleton]
    exact .string s

theorem within_ofNat (depth : Nat) {n : Nat} (hn : n < UInt64.size) :
    (Value.ofNat n).Within depth := by
  have hword : n ≤ Json.maxWord := Nat.le_pred_of_lt hn
  exact .number (by omega) (by exact_mod_cast hword)

theorem Reference.within_toValue (depth : Nat) (r : Reference) : r.toValue.Within (depth + 1) := by
  refine .object ?_
  simp only [List.forall_mem_cons]
  exact ⟨.string r.name, .string r.path, nofun⟩

theorem Console.within_toValue (depth : Nat) (c : Console) : c.toValue.Within (depth + 1) := by
  refine .object ?_
  simp only [List.forall_mem_cons]
  exact ⟨within_ofNat depth (UInt64.toNat_lt_size _), .string _, .bool _, .bool _, .bool _, .bool _,
    .bool _, .bool _, nofun⟩

theorem Workspace.within_toValue (depth : Nat) (w : Workspace) : w.toValue.Within (depth + 1) :=
  .object (within_optionalMember depth "path" w.path)

theorem Toolchain.within_toValue (depth : Nat) (t : Toolchain) : t.toValue.Within (depth + 3) := by
  have hlevel : t.optLevel.toNat < UInt64.size :=
    (UInt8.toNat_lt_size t.optLevel).trans_le (by decide)
  have hreferences : (Value.array (t.references.map Reference.toValue)).Within (depth + 2) := by
    refine .array fun v hv => ?_
    obtain ⟨r, -, rfl⟩ := List.mem_map.1 hv
    exact r.within_toValue depth
  refine .object (List.forall_mem_append.2
    ⟨within_optionalMember (depth + 2) "rustc" t.program, ?_⟩)
  simp only [List.forall_mem_cons]
  exact ⟨within_ofNat (depth + 2) hlevel, within_textList (depth + 1) t.extraArgs, hreferences,
    within_textList (depth + 1) t.libraryPaths, within_textList (depth + 1) t.prelude, nofun⟩

theorem Logging.within_toValue (depth : Nat) (l : Logging) : l.toValue.Within (depth + 1) := by
  refine .object ?_
  simp only [List.forall_mem_cons]
  exact ⟨.string l.level, nofun⟩

/-- Settings are written with at most four brackets around each other. -/
theorem within_toValue (depth : Nat) (s : Settings) : s.toValue.Within (depth + 4) := by
  refine .object ?_
  simp only [List.forall_mem_cons]
  exact ⟨.string s.version, s.console.within_toValue (depth + 2),
    s.workspace.within_toValue (depth + 2), s.toolchain.within_toValue depth,
    s.logging.within_toValue (depth + 2), nofun⟩

/-- **The text of a settings file stands for the settings,** although they are merged over the
standard ones. -/
theorem ofFileText?_fileText (s : Settings) : ofFileText? (some s.fileText) = .ok s := by
  have hdocument : Json.document s.fileText = .ok s.toValue.sorted :=
    Json.document_pretty (s.within_toValue 123)
  have hfull := restores.full s
  have hnull : s.toValue.sorted ≠ .null := fun heq => by
    have hne := hfull.ne_null
    rw [heq] at hne
    cases hne
  have hread : shape.decoder.read? (Json.merge standardValue s.toValue.sorted) = some s := by
    rw [agrees_standard _ (Value.ordered_sorted _) hnull, hfull.withoutNulls_eq]
    exact restores.read s
  simp only [ofFileText?, hdocument]
  rw [ofDocument, ofValue, Decoder.read?_eq_some.1 hread]

/-! ### Files of settings -/

open FileTree Machine

/-- A saved file has the text of the settings. -/
theorem textOf_of_save {s : Settings} {path : FilePath} {m m' : Machine}
    (ht : m.tree.WellFormed) (hsave : save s path m = .ok ⟨⟩ m') :
    m'.textOf path = .ok s.fileText := by
  have hkeeps (q : FilePath) : Keeps (fun m => m.tree.WellFormed) (makeDirectories q) :=
    keeps_makeDirectories (fun _ => keeps_change_tree fun _ _ _ h => h.makeDirectory) q
  obtain ⟨m₁, ht₁, hwrite⟩ : ∃ m₁ : Machine, m₁.tree.WellFormed ∧
      Machine.writeFile path (.bytes (Text.encode s.fileText)) m₁ = .ok ⟨⟩ m' := by
    unfold save at hsave
    rcases hparent : path.parent? with _ | parent
    · rw [hparent] at hsave
      exact ⟨m, ht, withFault_eq_ok.1 hsave⟩
    · rw [hparent] at hsave
      obtain ⟨_, m₁, hparent, hwrite⟩ := bind_eq_ok.1 hsave
      exact ⟨m₁, (hkeeps parent).ok ht (withFault_eq_ok.1 hparent), withFault_eq_ok.1 hwrite⟩
  obtain ⟨-, t, hchange, rfl⟩ := change_eq_ok.1 hwrite
  obtain ⟨loc, hfind⟩ := Tree.find_of_writeFile ht₁ hchange
  refine Tree.except_bind_eq_ok.2 ⟨_, hfind, ?_⟩
  simp only [Text.decode?_encode]

/-- The variables that change settings. -/
def overrideNames : List String :=
  ["LIVECODE_WORKSPACE", "LIVECODE_RUSTC", "LIVECODE_MAX_HISTORY", "LIVECODE_SHOW_ON_ERROR",
    "LIVECODE_LOG_LEVEL"]

/-- An environment with none of them changes nothing. -/
theorem withOverrides_eq_self {env : Environment}
    (h : ∀ name ∈ overrideNames, env.given? name = none) (s : Settings) :
    s.withOverrides env = s := by
  simp only [overrideNames, List.forall_mem_cons] at h
  obtain ⟨hworkspace, hprogram, hhistory, hshown, hlevel, -⟩ := h
  simp [withOverrides, overrideField, hworkspace, hprogram, hhistory, hshown, hlevel]

/-- **Saved settings load back,** in any environment: as they are with what the environment says, if
these settings keep the bounds, and else with the fault of the bound they break. So without
variables in the environment settings within the bounds load as they were. -/
theorem load_of_save {s : Settings} {path : FilePath} {m m' : Machine}
    (ht : m.tree.WellFormed) (hsave : save s path m = .ok ⟨⟩ m') (env : Environment) :
    ((s.withOverrides env).violation? = none →
      load path { m' with environment := env } = .ok (s.withOverrides env)) ∧
    (∀ violation, (s.withOverrides env).violation? = some violation →
      load path { m' with environment := env } = .error (.invalid violation)) ∧
    ((∀ name ∈ overrideNames, env.given? name = none) → s.violation? = none →
      load path { m' with environment := env } = .ok s) := by
  have hload : load path { m' with environment := env } = checked env s := by
    have htext : ({ m' with environment := env } : Machine).textOf path = .ok s.fileText := by
      show m'.textOf path = _
      exact textOf_of_save ht hsave
    simp only [load, htext, ofFileText?_fileText, bind, Except.bind]
  have hvalid (hnone : (s.withOverrides env).violation? = none) :
      load path { m' with environment := env } = .ok (s.withOverrides env) := by
    rw [hload, checked, hnone]
  refine ⟨hvalid, fun violation hsome => ?_, fun hunset hnone => ?_⟩
  · rw [hload, checked, hsome]
  · have heq := withOverrides_eq_self hunset s
    rw [heq] at hvalid
    exact hvalid hnone

/-- Settings with a path and no prelude. -/
def bareSettings : Settings :=
  { standard with workspace.path := some "w", toolchain.prelude := [] }

/-- A machine without files. -/
def blankMachine : Machine := .sound .empty [] .empty (RequestId.timeOrdered 0)

/-- The name of a file on it. -/
def bareName : FilePath := FilePath.ofString "s"

/-- Saved in a file, they load as they were: the standard prelude does not come back. -/
theorem load_bareSettings :
    blankMachine.tree.WellFormed ∧
    ∃ m', save bareSettings bareName blankMachine = .ok ⟨⟩ m' ∧
      load bareName { m' with environment := .empty } = .ok bareSettings := by
  have hlocate : Tree.empty.locate [] true bareName = .ok [bareName] :=
    Tree.locate_eq_ok.2 ⟨rfl, Tree.walk_last rfl (.of_isName (by decide)) nofun⟩
  have hwrite : Tree.empty.writeFile [] bareName (.bytes (Text.encode bareSettings.fileText))
      = .ok _ := Tree.writeFile_of_free (by decide) hlocate rfl
  have hsave : save bareSettings bareName blankMachine = .ok ⟨⟩ _ :=
    bind_eq_ok.2 ⟨_, _, rfl, withFault_eq_ok.2 (change_eq_ok.2 ⟨rfl, _, hwrite, rfl⟩)⟩
  have hload := load_of_save Tree.wellFormed_empty hsave .empty
  exact ⟨Tree.wellFormed_empty, _, hsave, hload.2.2 (fun _ _ => rfl) rfl⟩

end Settings
end SnippetConsole
