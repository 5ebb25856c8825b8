/-
# The settings in force

A session holds what its settings say in three places: the settings themselves, the policy of the
log and the template of the printer. A fourth is the file once they are saved.

| input | settings | policy and template |
| --- | --- | --- |
| `:reset` | the log fields as they are by default | taken from the settings |
| any other | as they were | as they were |

That the places agree is kept by each input (`InForce.act`) and so by any number of them
(`InForce.processAll`). A submission cannot change the policy, as what is executed natively only
appends to the log (`Execution.Native.of_execute`). Saving goes through the file tree, which has to
be well-formed for the file to be found again; no input spoils it.

What was loaded keeps the bounds that loading checks, and neither the options nor `:reset` break
them (`violation?_of_load`, `violation?_withOptions`, `violation?_afterAll`). So the saved file
loads.
-/

import SnippetConsole.CommandLine.Program
import SnippetConsole.Proofs.Initialisation
import SnippetConsole.Proofs.SessionHistory
import SnippetConsole.Proofs.SettingsRoundTrip
import SnippetConsole.Proofs.TreeKeeping

namespace SnippetConsole

open CommandLine (Input Options Session)

/-! ### Settings -/

namespace Settings

/-- The settings with the log fields as they are by default. -/
def withLogReset (s : Settings) : Settings := { s with console := s.console.resetLogFields }

/-- The settings after an input. -/
def after (s : Settings) : Input → Settings
  | .reset => s.withLogReset
  | _ => s

/-- The settings after inputs. -/
def afterAll (s : Settings) (inputs : List Input) : Settings := inputs.foldl after s

/-- **Only a reset counts,** and only once. -/
theorem afterAll_eq (s : Settings) (inputs : List Input) :
    s.afterAll inputs = if .reset ∈ inputs then s.withLogReset else s := by
  induction inputs generalizing s with
  | nil => rfl
  | cons input inputs ih =>
    change (s.after input).afterAll inputs = _
    rw [ih]
    by_cases h : Input.reset = input
    · subst h
      rw [if_pos List.mem_cons_self]
      -- the log fields of a reset section are the default ones already
      exact ite_self _
    · have hsame : s.after input = s := by
        cases input with
        | reset => exact absurd rfl h
        | _ => rfl
      simp only [hsame, List.mem_cons, h, false_or]

/-- The default number of entries is within the bounds. -/
theorem violation?_withLogReset {s : Settings} (h : s.violation? = none) :
    s.withLogReset.violation? = none := by
  have hdefault : Console.standard.maxHistoryLength ≠ 0 := by decide
  unfold violation? at h ⊢
  split at h
  · cases h
  · exact (if_neg hdefault).trans h

theorem violation?_afterAll {s : Settings} (h : s.violation? = none) (inputs : List Input) :
    (s.afterAll inputs).violation? = none := by
  rw [afterAll_eq]
  split
  · exact violation?_withLogReset h
  · exact h

/-- A file with the text of settings stands for them. -/
theorem load_of_textOf {s : Settings} {path : FilePath} {m : Machine}
    (h : m.textOf path = .ok s.fileText) : load path m = checked m.environment s := by
  simp only [load, h, ofFileText?_fileText, bind, Except.bind]

/-- Without a file the standard settings are read. -/
theorem ofFileText?_none : ofFileText? none = .ok standard := by
  have hread : ofValue standardValue = .ok standard :=
    Json.Decoder.read?_eq_some.1 (restores.read standard)
  simp only [ofFileText?, ofDocument, Json.merge_null, hread]

/-- The settings that a path stands for before the environment is asked: those of the text of its
file, or the standard ones if there is no file. -/
inductive Stored (path : FilePath) (m : Machine) : Settings → Prop
  | file {text : String} {s : Settings} (htext : m.textOf path = .ok text)
    (hread : ofFileText? (some text) = .ok s) : Stored path m s
  | absent {fault : FileTree.Fault} (hfault : m.textOf path = .error fault)
    (hkind : fault.kind = .notFound) : Stored path m standard

/-- Settings are checked with what the environment says. -/
theorem checked_eq_ok_iff {env : Environment} {read s : Settings} :
    checked env read = .ok s ↔
      s = read.withOverrides env ∧ (read.withOverrides env).violation? = none := by
  unfold checked
  dsimp only
  split
  · rename_i violation hviolation
    simp [hviolation]
  · rename_i hnone
    simp [hnone, eq_comm]

/-- What is loaded is what a path stands for, with what the environment says, if it keeps the
bounds. -/
theorem load_eq_ok_iff_stored {path : FilePath} {m : Machine} {s : Settings} :
    load path m = .ok s ↔ ∃ read, Stored path m read ∧ checked m.environment read = .ok s := by
  have hchecked (text : Option String) :
      (ofFileText? text >>= checked m.environment) = .ok s ↔
        ∃ read, ofFileText? text = .ok read ∧ checked m.environment read = .ok s :=
    FileTree.Tree.except_bind_eq_ok
  constructor
  · intro h
    unfold load at h
    dsimp only at h
    split at h
    · rename_i text htext
      obtain ⟨read, hread, h⟩ := (hchecked (some text)).1 h
      exact ⟨read, .file htext hread, h⟩
    · rename_i fault hfault
      split at h
      · rename_i hkind
        obtain ⟨read, hread, h⟩ := (hchecked none).1 h
        rw [ofFileText?_none] at hread
        obtain rfl := Except.ok.inj hread
        exact ⟨standard, .absent hfault hkind, h⟩
      · cases h
  · rintro ⟨read, hstored, h⟩
    cases hstored with
    | @file text _ htext hread =>
      simp only [load, htext]
      exact (hchecked (some text)).2 ⟨read, hread, h⟩
    | @absent fault hfault hkind =>
      simp only [load, hfault, if_pos hkind]
      exact (hchecked none).2 ⟨standard, ofFileText?_none, h⟩

/-- **Settings that were loaded keep the bounds.** -/
theorem violation?_of_load {s : Settings} {path : FilePath} {m : Machine}
    (h : load path m = .ok s) : s.violation? = none := by
  obtain ⟨read, -, hchecked⟩ := load_eq_ok_iff_stored.1 h
  obtain ⟨rfl, hvalid⟩ := checked_eq_ok_iff.1 hchecked
  exact hvalid

end Settings

/-! ### What is executed natively -/

namespace Log

/-- Appends leave the policy as it is. -/
theorem policy_applyAll {log : Log} {ops : List Operation}
    (h : ∀ op ∈ ops, ∃ m, op = .append m) : (log.applyAll ops).policy = log.policy := by
  induction ops generalizing log with
  | nil => rfl
  | cons op ops ih =>
    obtain ⟨⟨m, rfl⟩, hops⟩ := List.forall_mem_cons.1 h
    exact (ih hops).trans (log.policy_write m)

theorem Policy.clamped_ofSettings (c : Settings.Console) :
    (ofSettings c).clamped = ofSettings c := by
  simp [clamped, ofSettings]

end Log

namespace Execution
namespace Native

/-- **What a loaded unit does to the log** is that it logs messages. -/
theorem exists_append_of_mem_load {loader : Loadable.Loader} {artifact : FilePath} {m : Machine}
    {op : Log.Operation} (h : op ∈ (load loader artifact m).1.writes) : ∃ m, op = .append m := by
  unfold load at h
  rcases hmade : loader.instantiate (Loadable.libraryAt artifact m) (m.loaderWords artifact) with
    ⟨⟨failure | made, calls⟩, loader'⟩
  · rw [hmade] at h
    cases h
  · rw [hmade] at h
    obtain ⟨m, -, rfl⟩ := List.mem_map.1 h
    exact ⟨m, rfl⟩

/-- **What an execution does:** it only appends to the log, leaves the compiler as it is, and does
to the machine what building the unit does. -/
theorem of_execute {unit : Snippet.SourceUnit} {s s' : Native} {run : Run}
    (h : execute unit s = (run, s')) :
    (∀ op ∈ run.writes, ∃ m, op = .append m) ∧ s'.compiler = s.compiler ∧
      s'.machine = s.machine.after (build s.workspace s.compiler unit) := by
  rw [execute] at h
  rcases hbuild : build s.workspace s.compiler unit s.machine with ⟨artifact, m⟩ | ⟨failure, m⟩
  · rw [hbuild] at h
    obtain ⟨rfl, rfl⟩ := Prod.mk.inj h
    exact ⟨fun op hop => exists_append_of_mem_load hop, rfl, (Machine.after_of_eq_ok hbuild).symm⟩
  · rw [hbuild] at h
    obtain ⟨rfl, rfl⟩ := Prod.mk.inj h
    exact ⟨nofun, rfl, (Machine.after_of_eq_error hbuild).symm⟩

end Native
end Execution

namespace Console

/-- A console that executes natively, whose log has this policy and whose machine has a well-formed
tree. -/
structure Steady (policy : Log.Policy) (c : Console Execution.Native) : Prop where
  policy : c.log.policy = policy
  executor : c.executor = Execution.Native.execute
  wellFormed : c.state.machine.tree.WellFormed
  toolchain : ∃ p, c.state.compiler.toolchain = Compile.Toolchain.program p

namespace Steady

variable {policy : Log.Policy} {c : Console Execution.Native}

theorem write (h : Steady policy c) (m : Log.Message) :
    Steady policy { c with log := c.log.write m } :=
  { h with policy := (c.log.policy_write m).trans h.policy }

/-- It does not depend on the history. -/
theorem withHistory (h : Steady policy c) (history : History) :
    Steady policy { c with history := history } :=
  ⟨h.policy, h.executor, h.wellFormed, h.toolchain⟩

/-- **A submission changes nothing of it.** -/
theorem submit (h : Steady policy c) (mode : Mode) : Steady policy (c.submit mode).2 := by
  rcases hblank : Text.isBlankText c.commandLine with _ | _
  · rcases hrun : c.executor (c.template.wrap c.commandLine) c.state with ⟨run, state⟩
    rw [submit_of_command hblank mode hrun]
    rw [h.executor] at hrun
    obtain ⟨hwrites, hcompiler, hmachine⟩ := Execution.Native.of_execute hrun
    refine ⟨?_, h.executor, ?_, ?_⟩
    · refine (Log.policy_applyAll fun op hop => ?_).trans h.policy
      rcases List.mem_append.1 hop with hop | hop
      · rcases List.mem_cons.1 hop with rfl | hop
        · exact ⟨_, rfl⟩
        · exact hwrites op hop
      · exact ⟨_, List.mem_singleton.1 hop⟩
    · change state.machine.tree.WellFormed
      rw [hmachine]
      obtain ⟨p, hp⟩ := h.toolchain
      refine Execution.Native.keepsTree_build _ (fun invocation => ?_) _ _ h.wellFormed
      rw [hp]
      exact Compile.Toolchain.keepsTree_program p invocation
    · change ∃ p, state.compiler.toolchain = Compile.Toolchain.program p
      rw [hcompiler]
      exact h.toolchain
  · rw [submit_of_blank hblank]
    exact h

end Steady
end Console

/-! ### Sessions -/

namespace CommandLine

/-- Options do not concern the bounds. -/
theorem violation?_withOptions (o : Options) (s : Settings) :
    (withOptions o s).violation? = s.violation? := by
  rcases o with ⟨settings, _ | workspace, _ | program, _ | level, eval⟩
  all_goals rfl

/-- Printing does not change the template. -/
theorem Printer.template_flush (p : Printer) (log : Log) :
    (p.flush log).2.template = p.template := by
  have hprint (es : List Log.Entry) (p : Printer) : (p.print es).2.template = p.template := by
    induction es generalizing p with
    | nil => rfl
    | cons e es ih =>
      rw [print]
      split
      · exact ih (p.after e)
      · exact ih p
  exact hprint _ p

namespace Session

/-- These settings are in force in a session that saves them to this file. -/
structure InForce (current : Settings) (file : FilePath) (s : Session Execution.Native) : Prop where
  settings : s.settings = current
  console : s.console.Steady (.ofSettings current.console)
  template : s.printer.template = current.console.formatString
  file : s.settingsFile = file
  store : s.store = saveNatively

namespace InForce

variable {current : Settings} {file : FilePath} {s s' : Session Execution.Native}

/-- A message of the console itself changes nothing. -/
theorem note (h : InForce current file s) (text : String) (severity : Severity) :
    InForce current file (s.withLog (·.note text severity)) :=
  { h with console := h.console.write ⟨.internal, text, severity⟩ }

/-- **A reset** brings the default log settings into force. -/
theorem reset (h : InForce current file s) :
    InForce current.withLogReset file s.resetLogSettings := by
  rcases s with ⟨console, printer, settings, settingsFile, store⟩
  obtain rfl : settings = current := h.settings
  have hset : InForce settings.withLogReset file
      { console := console.applySettings settings.console.resetLogFields
        printer := printer.setTemplate settings.console.resetLogFields.formatString
        settings := settings.withLogReset
        settingsFile := settingsFile
        store := store } :=
    ⟨rfl, { h.console with policy := Log.Policy.clamped_ofSettings _ }, rfl, h.file, h.store⟩
  exact hset.note _ _

/-- What saving does to the executor's state. -/
theorem store_eq (h : InForce current file s) :
    s.store s.settings s.settingsFile s.console.state
      = saveNatively current file s.console.state := by
  rw [h.store, h.settings, h.file]

/-- Saving changes the machine alone, and keeps its tree well-formed. -/
theorem saveNatively_steady {policy : Log.Policy} {c : Console Execution.Native}
    (h : c.Steady policy) (settings : Settings) (path : FilePath) :
    Console.Steady policy { c with state := (saveNatively settings path c.state).2 } := by
  have hkeeps := settings.keepsTree_save path
  rcases hsave : settings.save path c.state.machine with ⟨_, m⟩ | ⟨fault, m⟩
  · rw [saveNatively, hsave]
    exact { h with wellFormed := hkeeps.ok h.wellFormed hsave }
  · rw [saveNatively, hsave]
    exact { h with wellFormed := hkeeps.error h.wellFormed hsave }

/-- **Saving** changes none of the settings, whether it succeeds or not. -/
theorem save (h : InForce current file s) : InForce current file s.saveSettings := by
  have hstate : InForce current file { s with
      console.state := (s.store s.settings s.settingsFile s.console.state).2 } := by
    rw [h.store_eq]
    exact { h with console := saveNatively_steady h.console current file }
  rw [saveSettings]
  rcases hstore : s.store s.settings s.settingsFile s.console.state with ⟨result, state⟩
  rw [hstore] at hstate
  cases result with
  | ok _ => exact hstate.note _ _
  | error fault => exact hstate.note _ _

/-- **One input:** the settings after it are in force. -/
theorem act (h : InForce current file s) {input : Input} {said : String}
    (hact : s.act input = some (said, s')) : InForce (current.after input) file s' := by
  have hsubmit (history : History) (mode : Console.Mode) :
      Console.Steady (.ofSettings current.console)
        ({ s.console with history := history }.submit mode).2 :=
    (h.console.withHistory history).submit mode
  cases input with
  | snippet code =>
    cases hact
    exact { h with console := hsubmit _ .roll }
  | keep code =>
    cases hact
    exact { h with console := (hsubmit _ .keep).withHistory _ }
  | again =>
    rw [Session.act, Option.some.injEq, runAgain] at hact
    rcases hprevious : s.console.history.previous? with _ | history
    · rw [hprevious] at hact
      cases hact
      exact h
    · rw [hprevious] at hact
      cases hact
      exact { h with console := hsubmit history .roll }
  | save =>
    cases hact
    exact h.save
  | reset =>
    cases hact
    exact h.reset
  | clear =>
    cases hact
    exact { h with console := { h.console with policy := h.console.policy } }
  | unknown name =>
    cases hact
    exact h.note _ _
  | history =>
    cases hact
    exact h
  | help =>
    cases hact
    exact h
  | quit => cases hact

/-- So they are after it is printed. -/
theorem process (h : InForce current file s) {input : Input} {text : String}
    (hprocess : s.process input = some (text, s')) :
    InForce (current.after input) file s' := by
  obtain ⟨said, s₁, hact, -, rfl⟩ := process_eq_some.1 hprocess
  have h₁ := h.act hact
  exact { h₁ with template := (s₁.printer.template_flush s₁.console.log).trans h₁.template }

/-- **A run:** the settings after any inputs are in force. -/
theorem processAll (h : InForce current file s) {inputs : List Input}
    (hrun : s.processAll inputs = some s') : InForce (current.afterAll inputs) file s' := by
  induction inputs generalizing current s with
  | nil =>
    cases hrun
    exact h
  | cons input inputs ih =>
    obtain ⟨⟨text, s₁⟩, hprocess, hrest⟩ := Option.bind_eq_some_iff.1 hrun
    exact ih (h.process hprocess) hrest

/-- The settings that a session starts with are in force. -/
theorem start {settings : Settings} {m m' : Machine} (ht : m.tree.WellFormed)
    {native : Execution.Native}
    (hnative : Execution.Native.ofSettings settings m = .ok native m') (file : FilePath)
    (clock : Clock) : InForce settings file (sessionOf settings file native clock) := by
  rw [Execution.Native.ofSettings] at hnative
  rcases hinit : Workspace.initialise (Execution.Native.rootOf settings.workspace m) m with
    ⟨workspace, m₁⟩ | ⟨fault, m₁⟩
  · rw [hinit] at hnative
    cases hnative
    refine ⟨rfl, ⟨Log.Policy.clamped_ofSettings _, rfl, ?_, ⟨_, rfl⟩⟩, rfl, rfl, rfl⟩
    exact (Workspace.keepsTree_initialise _).ok ht hinit
  · rw [hinit] at hnative
    cases hnative

end InForce

/-- Saving the settings would succeed. -/
def Saves (s : Session σ) : Prop := (s.store s.settings s.settingsFile s.console.state).1 = .ok ⟨⟩

/-- **A saved file stands for the settings in force.** -/
theorem InForce.textOf_of_saves {current : Settings} {file : FilePath}
    {s s' : Session Execution.Native} (h : InForce current file s) (hsaves : s.Saves)
    {text : String} (hprocess : s.process .save = some (text, s')) :
    s'.console.state.machine.textOf file = .ok current.fileText := by
  obtain ⟨said, s₁, hact, -, rfl⟩ := process_eq_some.1 hprocess
  cases hact
  rw [Saves, h.store_eq, saveNatively] at hsaves
  change s.saveSettings.console.state.machine.textOf file = _
  rw [saveSettings, h.store_eq, saveNatively]
  rcases hsave : current.save file s.console.state.machine with ⟨_, m⟩ | ⟨fault, m⟩
  · exact Settings.textOf_of_save h.console.wellFormed hsave
  · rw [hsave] at hsaves
    cases hsaves

end Session

/-- **Saved settings are the ones in force.** A session starts with loaded settings, changed as the
options say, and goes through any inputs. If it then saves its settings, the file loads wherever no
variable changes settings. What is loaded are the settings that the session started with, with the
log fields reset just if there was a `:reset`. The policy of the log is that of the loaded console
section, and the template of the printer is its format string. -/
theorem saved_settings_in_force {o : Options} {m m₀ : Machine} (ht : m.tree.WellFormed)
    {loaded : Settings} (hload : Settings.load (settingsFile o m) m = .ok loaded)
    {native : Execution.Native}
    (hnative : Execution.Native.ofSettings (withOptions o loaded) m = .ok native m₀)
    {clock : Clock} {inputs : List Input} {s s' : Session Execution.Native}
    (hrun : (sessionOf (withOptions o loaded) (settingsFile o m) native clock).processAll inputs
      = some s)
    (hsaves : s.Saves) {text : String} (hprocess : s.process .save = some (text, s'))
    {env : Environment} (henv : ∀ name ∈ Settings.overrideNames, env.given? name = none) :
    ∃ saved, Settings.load (settingsFile o m)
        { s'.console.state.machine with environment := env } = .ok saved ∧
      saved = (if .reset ∈ inputs then
          { withOptions o loaded with console := (withOptions o loaded).console.resetLogFields }
        else withOptions o loaded) ∧
      s'.console.log.policy = .ofSettings saved.console ∧
      s'.printer.template = saved.console.formatString := by
  have hforce := (Session.InForce.start ht hnative (settingsFile o m) clock).processAll hrun
  have hforce' : Session.InForce ((withOptions o loaded).afterAll inputs) (settingsFile o m) s' :=
    hforce.process hprocess
  refine ⟨_, ?_, Settings.afterAll_eq _ inputs, hforce'.console.policy, hforce'.template⟩
  have hvalid : ((withOptions o loaded).afterAll inputs).violation? = none :=
    Settings.violation?_afterAll
      ((violation?_withOptions o loaded).trans (Settings.violation?_of_load hload)) inputs
  have htext := hforce.textOf_of_saves hsaves hprocess
  refine (Settings.load_of_textOf (m := { s'.console.state.machine with environment := env })
    htext).trans ?_
  rw [Settings.checked, Settings.withOverrides_eq_self henv, hvalid]

/-- A machine with a directory for a workspace, where variables name it and bound the log. -/
def boundedMachine : Machine :=
  .sound Workspace.homeTree [] ⟨[("LIVECODE_WORKSPACE", Workspace.rootEntry Workspace.scratchName),
    ("LIVECODE_MAX_HISTORY", Text.encode "5")]⟩ (RequestId.timeOrdered 0)

/-- Options that name a settings file and a filter. -/
def tracingOptions : Options :=
  { Options.empty with settings := some Settings.bareName, logLevel := some "trace" }

/-- The settings loaded there: the file does not exist. -/
def boundedSettings : Settings :=
  { Settings.standard with workspace.path := some "/w", console.maxHistoryLength := 5 }

/-- A name that is free in the root is found there. -/
theorem locate_bareName {t : FileTree.Tree} (hfree : t.node? [Settings.bareName] = none) :
    t.locate [] true Settings.bareName = .ok [Settings.bareName] :=
  FileTree.Tree.locate_eq_ok.2 ⟨rfl, FileTree.Tree.walk_last (FileTree.Tree.node?_root t)
    (.of_isName (by decide)) fun _ h => nomatch hfree.symm.trans h⟩

/-- Settings can be saved under it. -/
theorem exists_save_bareName (s : Settings) {m : Machine} (hdir : m.directory = [])
    (hfault : m.faults m.changes = none) (hfree : m.tree.node? [Settings.bareName] = none) :
    ∃ m', s.save Settings.bareName m = .ok ⟨⟩ m' := by
  have hwrite : m.tree.writeFile m.directory Settings.bareName (.bytes (Text.encode s.fileText))
      = .ok _ := hdir ▸ FileTree.Tree.writeFile_of_free (by decide) (locate_bareName hfree) hfree
  exact ⟨_, Machine.bind_eq_ok.2 ⟨_, m, rfl, Machine.withFault_eq_ok.2
    (Machine.change_eq_ok.2 ⟨hfault, _, hwrite, rfl⟩)⟩⟩

theorem load_boundedMachine :
    Settings.load (settingsFile tracingOptions boundedMachine) boundedMachine
      = .ok boundedSettings := by
  have htext : boundedMachine.textOf Settings.bareName = .error .missing := by
    have hfind : Workspace.homeTree.find [] true Settings.bareName = .error .missing := by
      rw [FileTree.Tree.find, Bool.true_or, locate_bareName rfl]
      rfl
    change (Workspace.homeTree.find [] true Settings.bareName >>= _) = _
    rw [hfind]
    rfl
  have hchecked : Settings.checked boundedMachine.environment Settings.standard
      = .ok boundedSettings := by decide
  change Settings.load Settings.bareName boundedMachine = _
  simp only [Settings.load, htext, bind, Except.bind]
  rw [if_pos (by decide), Settings.ofFileText?_none]
  exact hchecked

/-- The workspace is made, and leaves the name free. -/
theorem ofSettings_boundedMachine :
    ∃ native m₀, Execution.Native.ofSettings (withOptions tracingOptions boundedSettings)
        boundedMachine = .ok native m₀ ∧
      native.machine.directory = [] ∧ native.machine.faults = boundedMachine.faults ∧
      native.machine.tree.node? [Settings.bareName] = none := by
  have hroot : Execution.Native.rootOf (withOptions tracingOptions boundedSettings).workspace
      boundedMachine = Workspace.rootEntry Workspace.scratchName := by decide
  have hinit := Workspace.initialise_of_ground (m := boundedMachine) (fun _ _ => rfl)
    Workspace.ground_homeTree Workspace.walkable_scratch
  rw [Execution.Native.ofSettings, hroot, hinit]
  refine ⟨_, _, rfl, rfl, rfl, ?_⟩
  change (Workspace.furnished _ Workspace.homeTree).node? _ = none
  rw [Workspace.node?_furnished]
  decide

/-- After a reset the saved settings do not bound the log any more. They keep the workspace and the
filter. -/
theorem saved_settings_boundedMachine :
    ∃ native m₀ s text s',
      Settings.load (settingsFile tracingOptions boundedMachine) boundedMachine
        = .ok boundedSettings ∧
      Execution.Native.ofSettings (withOptions tracingOptions boundedSettings) boundedMachine
        = .ok native m₀ ∧
      (sessionOf (withOptions tracingOptions boundedSettings)
        (settingsFile tracingOptions boundedMachine) native .epoch).processAll [.reset] = some s ∧
      s.Saves ∧ s.process .save = some (text, s') ∧
      Settings.load (settingsFile tracingOptions boundedMachine)
          { s'.console.state.machine with environment := .empty }
        = .ok { Settings.standard with workspace.path := some "/w", logging.level := "trace" } ∧
      s'.console.log.policy = .standard ∧
      s'.printer.template = Settings.standard.console.formatString := by
  obtain ⟨native, m₀, hnative, hdir, hfaults, hfree⟩ := ofSettings_boundedMachine
  obtain ⟨s, hrun, hstate⟩ : ∃ s, (sessionOf (withOptions tracingOptions boundedSettings)
      (settingsFile tracingOptions boundedMachine) native .epoch).processAll [.reset] = some s ∧
        s.console.state = native := ⟨_, rfl, rfl⟩
  obtain ⟨text, s', hprocess⟩ : ∃ text s', s.process .save = some (text, s') := ⟨_, _, rfl⟩
  have hforce := (Session.InForce.start Workspace.wellFormed_homeTree hnative
    (settingsFile tracingOptions boundedMachine) .epoch).processAll hrun
  have hsaves : s.Saves := by
    obtain ⟨m', hsave⟩ := exists_save_bareName
      ((withOptions tracingOptions boundedSettings).afterAll [.reset]) (m := native.machine) hdir
      (by rw [hfaults]; rfl) hfree
    rw [Session.Saves, hforce.store_eq, hstate, saveNatively]
    rw [show settingsFile tracingOptions boundedMachine = Settings.bareName from rfl, hsave]
  have hunset : ∀ name ∈ Settings.overrideNames, Environment.empty.given? name = none :=
    fun _ _ => rfl
  obtain ⟨saved, hload, hsaved, hpolicy, htemplate⟩ := saved_settings_in_force
    (o := tracingOptions) (m := boundedMachine) Workspace.wellFormed_homeTree load_boundedMachine
    hnative hrun hsaves hprocess hunset
  rw [if_pos List.mem_cons_self] at hsaved
  subst hsaved
  exact ⟨native, m₀, s, text, s', load_boundedMachine, hnative, hrun, hsaves, hprocess, hload,
    hpolicy, htemplate⟩

end CommandLine
end SnippetConsole
