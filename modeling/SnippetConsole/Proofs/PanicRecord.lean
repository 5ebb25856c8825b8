/-
# Which panics are recorded

A program is made of steps, sequences, panics that are raised, code that is run contained and code
whose panic is caught in another way; after the last two the program goes on with what they came to,
or without looking at it. What happens in a run is told without a count of containments: a panic is
contained if it is raised somewhere within contained code (`happenings`).

| happening | what it does to a log |
| --- | --- |
| a step that works on this log | its operations |
| a step that works on another one | nothing |
| a panic outside of all contained code | one message for each recorder of this log |
| a panic within contained code | nothing |

The code of a program keeps count instead. Both agree (`Program.runs`) because a run leaves the
count as it found it however it ends (`Told.depth`): it is again what it was when the code behind a
containment runs, so a panic is raised at a count of 0 just if no containment is around it.
-/

import SnippetConsole.Proofs.Submission
import Mathlib.Data.List.Induction

namespace SnippetConsole
namespace Panic

/-! ### Programs -/

/-- A program. What follows contained or caught code may depend on what that came to. -/
inductive Program where
  | step (log : Nat) (ops : List Log.Operation)
  | seq (first second : Program)
  | raise (place : String) (payload : Payload)
  | contain (body : Program) (next : Except Payload Unit → Program)
  | catching (body : Program) (next : Except Payload Unit → Program)

/-- A program as code. -/
def Program.code : Program → Code Unit
  | step log ops => writing log ops
  | seq first second => do
    first.code
    second.code
  | raise place payload => Panic.raise place payload
  | contain body next => do
    let result ← Panic.contain body.code
    (next result).code
  | catching body next => do
    let result ← Panic.catching body.code
    (next result).code

/-- Something that happens in a run: a step works on the log with a number, or a panic is raised,
within contained code or not. -/
inductive Happening where
  | worked (log : Nat) (ops : List Log.Operation)
  | raised (place : String) (payload : Payload) (contained : Bool)
  deriving DecidableEq, Repr

/-- What happens in a run, and what it comes to. The run is `contained` if a containment is around
the program. -/
def Program.happenings : Program → (contained : Bool) → List Happening × Except Payload Unit
  | step log ops, _ => ([.worked log ops], .ok ())
  | seq first second, contained =>
    let (happened, result) := first.happenings contained
    match result with
    | .error payload => (happened, .error payload)
    | .ok _ =>
      let (more, result) := second.happenings contained
      (happened ++ more, result)
  | raise place payload, contained => ([.raised place payload contained], .error payload)
  | contain body next, contained =>
    let (happened, result) := body.happenings true
    let (more, result) := (next result).happenings contained
    (happened ++ more, result)
  | catching body next, contained =>
    let (happened, result) := body.happenings contained
    let (more, result) := (next result).happenings contained
    (happened ++ more, result)

/-- What a happening does to the log with number `i`, each recorder being given by the number of its
log. -/
def Happening.operations (recorders : List Nat) (i : Nat) : Happening → List Log.Operation
  | worked log ops => if log = i then ops else []
  | raised _ _ true => []
  | raised place payload false =>
    List.replicate (recorders.count i)
      (.append ⟨.named place, "panic: " ++ payload.message, .exception⟩)

/-- The surroundings without recorders, and then one installed for each of these logs in turn. -/
def installed (recorders : List Nat) (depth : Nat) (logs : List Log) : Surroundings :=
  recorders.foldl Surroundings.install ⟨depth, logs, []⟩

/-! ### What is told of a run -/

/-- From `s` to `s'` nothing happened but this. -/
structure Told (s : Surroundings) (happened : List Happening) (s' : Surroundings) : Prop where
  depth : s'.depth = s.depth
  recorders : s'.recorders = s.recorders
  logs : ∀ i, s'.logs[i]?
    = s.logs[i]?.map fun log : Log => log.applyAll (happened.flatMap (·.operations s.recorders i))

namespace Told

variable {s s' s'' : Surroundings} {happened more : List Happening}

/-- One thing happened after the other. -/
theorem append (h : Told s happened s') (h' : Told s' more s'') :
    Told s (happened ++ more) s'' where
  depth := h'.depth.trans h.depth
  recorders := h'.recorders.trans h.recorders
  logs := fun i => by
    rw [h'.logs, h.logs, h.recorders, Option.map_map, List.flatMap_append]
    exact congrArg (Option.map · _) (funext fun log => (log.applyAll_append ..).symm)

/-- A containment ends: it counted itself in and out. -/
theorem of_contained (h : Told { s with depth := s.depth + 1 } happened s') :
    Told s happened { s' with depth := s'.depth - 1 } where
  depth := by
    change s'.depth - 1 = s.depth
    rw [h.depth, Nat.add_sub_cancel]
  recorders := h.recorders
  logs := h.logs

/-- A step works on its log. -/
theorem worked (log : Nat) (ops : List Log.Operation) :
    Told s [.worked log ops] { s with logs := s.logs.modify log (·.applyAll ops) } where
  depth := rfl
  recorders := rfl
  logs := fun i => by
    rw [List.getElem?_modify, List.flatMap_singleton, Happening.operations]
    by_cases h : log = i
    · simp [h]
    · simp [h, Log.applyAll]

end Told

/-- **What recorders note:** a log gets the message once for each recorder of its own. -/
theorem getElem?_recordAll (recorders : List Nat) (m : Log.Message) (logs : List Log) (i : Nat) :
    (recordAll recorders m logs)[i]?
      = logs[i]?.map fun log : Log =>
          log.applyAll (List.replicate (recorders.count i) (.append m)) := by
  induction recorders generalizing logs with
  | nil => exact Option.map_id'.symm
  | cons first rest ih =>
    change (recordAll rest m (logs.modify first (·.write m)))[i]? = _
    rw [ih, List.getElem?_modify, Option.map_eq_map, Option.map_map]
    refine congrArg (Option.map · _) (funext fun log => ?_)
    by_cases h : first = i
    · rw [h, List.count_cons_self, List.replicate_succ, Function.comp_apply, if_pos rfl]
      rfl
    · rw [List.count_cons_of_ne h, Function.comp_apply, if_neg h]

/-- A panic is recorded just if the count of containments is 0. -/
theorem Told.raised {s : Surroundings} (place : String) (payload : Payload) :
    Told s [.raised place payload (0 < s.depth)]
      (if s.depth = 0 then { s with logs := recordAll s.recorders (record place payload) s.logs }
        else s) := by
  by_cases h : s.depth = 0
  · rw [if_pos h]
    refine ⟨rfl, rfl, fun i => ?_⟩
    rw [List.flatMap_singleton, h]
    exact getElem?_recordAll ..
  · rw [if_neg h]
    refine ⟨rfl, rfl, fun i => ?_⟩
    rw [List.flatMap_singleton, decide_eq_true (Nat.pos_of_ne_zero h)]
    exact Option.map_id'.symm

/-! ### Runs of code -/

/-- The end of a run. -/
def ended (result : Except Payload α) (s : Surroundings) : EStateM.Result Payload Surroundings α :=
  match result with
  | .ok a => .ok a s
  | .error payload => .error payload s

/-- Run from `s`, code comes to this result, and this happens. -/
def Runs (code : Code α) (s : Surroundings) (happened : List Happening)
    (result : Except Payload α) : Prop :=
  ∃ s', code s = ended result s' ∧ Told s happened s'

namespace Runs

variable {s : Surroundings} {happened more : List Happening} {code : Code α}

/-- Code that has a result is gone on from. -/
theorem bind_ok {next : α → Code β} {a : α} {result : Except Payload β}
    (h : Runs code s happened (.ok a))
    (hnext : ∀ s', s'.depth = s.depth → Runs (next a) s' more result) :
    Runs (code >>= next) s (happened ++ more) result := by
  obtain ⟨s₁, hcode, htold⟩ := h
  obtain ⟨s₂, hrest, hmore⟩ := hnext s₁ htold.depth
  refine ⟨s₂, ?_, htold.append hmore⟩
  change EStateM.bind code next s = _
  rw [EStateM.bind, hcode]
  exact hrest

/-- Code that panics is not. -/
theorem bind_error {next : α → Code β} {payload : Payload}
    (h : Runs code s happened (.error payload)) :
    Runs (code >>= next) s happened (.error payload) := by
  obtain ⟨s₁, hcode, htold⟩ := h
  refine ⟨s₁, ?_, htold⟩
  change EStateM.bind code next s = _
  rw [EStateM.bind, hcode]
  rfl

/-- **A containment always returns,** with the count as it was. -/
theorem contain {result : Except Payload α}
    (h : Runs code { s with depth := s.depth + 1 } happened result) :
    Runs (Panic.contain code) s happened (.ok result) := by
  obtain ⟨s₁, hcode, htold⟩ := h
  refine ⟨_, ?_, htold.of_contained⟩
  rw [Panic.contain, hcode]
  cases result with
  | ok a => rfl
  | error payload => rfl

theorem catching {result : Except Payload α} (h : Runs code s happened result) :
    Runs (Panic.catching code) s happened (.ok result) := by
  obtain ⟨s₁, hcode, htold⟩ := h
  refine ⟨s₁, ?_, htold⟩
  rw [Panic.catching, hcode]
  cases result with
  | ok a => rfl
  | error payload => rfl

end Runs

/-- **A run is as it is told,** whatever surrounds it. -/
theorem Program.runs (p : Program) (s : Surroundings) :
    Runs p.code s (p.happenings (0 < s.depth)).1 (p.happenings (0 < s.depth)).2 := by
  induction p generalizing s with
  | step log ops => exact ⟨_, rfl, .worked log ops⟩
  | seq first second ihf ihs =>
    have hfirst := ihf s
    rw [happenings]
    rcases hh : first.happenings (0 < s.depth) with ⟨happened, payload | _⟩
    all_goals rw [hh] at hfirst
    · exact hfirst.bind_error
    · exact hfirst.bind_ok fun s' hs' => hs' ▸ ihs s'
  | raise place payload => exact ⟨_, rfl, .raised place payload⟩
  | contain body next ihb ihn =>
    -- inside, the count is not 0
    have hbody := ihb { s with depth := s.depth + 1 }
    rw [show decide (0 < s.depth + 1) = true from decide_eq_true (Nat.succ_pos _)] at hbody
    exact hbody.contain.bind_ok fun s' hs' => hs' ▸ ihn _ s'
  | catching body next ihb ihn => exact (ihb s).catching.bind_ok fun s' hs' => hs' ▸ ihn _ s'

/-- **Within contained code every panic is contained,** at any depth of nesting. -/
theorem Program.contained_of_mem_happenings (p : Program) {place : String} {payload : Payload}
    {contained : Bool} (h : .raised place payload contained ∈ (p.happenings true).1) :
    contained = true := by
  induction p with
  | step log ops => cases List.mem_singleton.1 h
  | seq first second ihf ihs =>
    rw [happenings] at h
    rcases hh : first.happenings true with ⟨happened, payload | _⟩
    all_goals simp only [hh] at h ihf
    · exact ihf h
    · exact (List.mem_append.1 h).elim ihf ihs
  | raise place payload =>
    cases List.mem_singleton.1 h
    rfl
  | contain body next ihb ihn => exact (List.mem_append.1 h).elim ihb (ihn _)
  | catching body next ihb ihn => exact (List.mem_append.1 h).elim ihb (ihn _)

/-! ### The main statement -/

/-- Installing keeps count and logs; the recorders stand in the other order. -/
theorem installed_eq (recorders : List Nat) (depth : Nat) (logs : List Log) :
    installed recorders depth logs = ⟨depth, logs, recorders.reverse⟩ := by
  induction recorders using List.reverseRecOn with
  | nil => rfl
  | append_singleton recorders last ih =>
    rw [installed, List.foldl_append, ← installed, ih, List.reverse_append]
    rfl

/-- The order of the recorders does not matter. -/
theorem Happening.operations_reverse (recorders : List Nat) (i : Nat) (h : Happening) :
    h.operations recorders.reverse i = h.operations recorders i := by
  cases h with
  | worked log ops => rfl
  | raised place payload contained =>
    cases contained with
    | true => rfl
    | false => rw [operations, operations, List.count_reverse]

/-- What is told with recorders installed. -/
theorem Told.logs_of_installed {recorders : List Nat} {depth : Nat} {logs : List Log}
    {happened : List Happening} {s' : Surroundings}
    (h : Told (installed recorders depth logs) happened s') (i : Nat) :
    s'.logs[i]? = logs[i]?.map fun log : Log =>
      log.applyAll (happened.flatMap (·.operations recorders i)) := by
  have hlogs := h.logs i
  simp only [installed_eq, Happening.operations_reverse] at hlogs
  exact hlogs

/-- **Panics are recorded just if nobody contains them.** Run with recorders installed for any logs,
some of them more than once, a program comes to what is told of it, and each log gets what its steps
do to it and one message for each panic outside of all contained code and each recorder of the log.
With a containment around it all its panics are contained. Neither moves the count of containments,
whether the program panics or not. So a later panic, outside of all containments, is recorded. -/
theorem panics_recorded_unless_contained (p : Program) (recorders : List Nat) (depth : Nat)
    (logs : List Log) :
    let s := installed recorders depth logs
    let told := p.happenings (0 < depth)
    ∃ s', p.code s = ended told.2 s' ∧ s'.depth = depth ∧
      (∀ i, s'.logs[i]? = logs[i]?.map fun log : Log =>
        log.applyAll (told.1.flatMap (·.operations recorders i))) ∧
      (∃ s₁, Panic.contain p.code s = .ok (p.happenings true).2 s₁ ∧ s₁.depth = depth ∧
        (∀ i, s₁.logs[i]? = logs[i]?.map fun log : Log =>
          log.applyAll ((p.happenings true).1.flatMap (·.operations recorders i))) ∧
        ∀ place payload contained,
          .raised place payload contained ∈ (p.happenings true).1 → contained = true) ∧
      ∀ place payload, depth = 0 →
        ∃ s₂, (Panic.raise place payload : Code Unit) s' = .error payload s₂ ∧
          ∀ i, s₂.logs[i]? = s'.logs[i]?.map fun log : Log =>
            log.applyAll (List.replicate (recorders.count i)
              (.append ⟨.named place, "panic: " ++ payload.message, .exception⟩)) := by
  intro s told
  have hs : s = ⟨depth, logs, recorders.reverse⟩ := installed_eq recorders depth logs
  have hdepth : s.depth = depth := by rw [hs]
  obtain ⟨s', hcode, htold⟩ := p.runs s
  rw [hdepth] at hcode htold
  refine ⟨s', hcode, htold.depth.trans hdepth, htold.logs_of_installed, ?_,
    fun place payload hzero => ⟨_, rfl, fun i => ?_⟩⟩
  · have hinside := p.runs { s with depth := s.depth + 1 }
    rw [show decide (0 < s.depth + 1) = true from decide_eq_true (Nat.succ_pos _)] at hinside
    obtain ⟨s₁, hcontain, htold₁⟩ := hinside.contain
    exact ⟨s₁, hcontain, htold₁.depth.trans hdepth, htold₁.logs_of_installed,
      fun _ _ _ => p.contained_of_mem_happenings⟩
  · rw [if_pos (htold.depth.trans (hdepth.trans hzero)), htold.recorders, hs,
      ← List.count_reverse]
    exact getElem?_recordAll ..

/-- A program whose first panic is contained; behind the containment it raises another one. -/
def raisesTwice : Program :=
  .contain (.raise "a:1" .other) fun _ => .raise "a:2" (.text "x")

/-- Two recorders of one log note the second panic, each once. -/
example : (raisesTwice.happenings false).1.flatMap (·.operations [0, 0] 0)
    = [.append ⟨.named "a:2", "panic: x", .exception⟩,
        .append ⟨.named "a:2", "panic: x", .exception⟩] := by decide

end Panic
end SnippetConsole
