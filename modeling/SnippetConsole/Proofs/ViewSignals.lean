/-
# The signals of the log over whole runs

A log is used by calls, and each call has an answer (`perform`). The calls so far with their answers
are a transcript, and the transcript alone tells what a view will hear next:

| call | answer |
| --- | --- |
| `takeReveal` | since the last one, an entry was added that the policy then in force reveals |
| `takeScroll` | since the last one, an entry was added under a policy that scrolls |
| `revision` | the number of appends, clearings and changes of policy, modulo `2 ^ 64` |

So a request waits until it is taken, whatever becomes of the entry that made it: only an entry that
is added makes one (`AddedUnder`), and only its own call takes it. That a log needs no more than two
marks and a counter for this is the invariant `Tells`; `Tells.perform` is one call, and
`Tells.performAll` any number of them.
-/

import SnippetConsole.Proofs.LogStep
import Mathlib.Data.List.Induction

namespace SnippetConsole
namespace Log

/-! ### Calls and answers -/

/-- A call of a log: something done to it, or something read from it. -/
inductive Call where
  | append (m : Message)
  | clear
  | setPolicy (policy : Policy)
  | takeReveal
  | takeScroll
  | snapshot
  | since (after : Nat)
  | newest
  | length
  | policy
  | revision
  deriving DecidableEq, Repr

/-- What a call is answered with. -/
inductive Answer where
  | outcome (outcome : Outcome)
  | nothing
  | request (raised : Bool)
  | entries (entries : List Entry)
  | newest (entry : Option Entry)
  | length (n : Nat)
  | policy (policy : Policy)
  | revision (revision : UInt64)
  deriving DecidableEq, Repr

/-- The answer of a call, and the log afterwards. -/
def perform (log : Log) : Call → Answer × Log
  | .append m => (.outcome (log.append m).1, (log.append m).2)
  | .clear => (.nothing, log.clear)
  | .setPolicy policy => (.nothing, log.setPolicy policy)
  | .takeReveal => (.request log.takeReveal.1, log.takeReveal.2)
  | .takeScroll => (.request log.takeScroll.1, log.takeScroll.2)
  | .snapshot => (.entries log.snapshot, log)
  | .since after => (.entries (log.since after), log)
  | .newest => (.newest log.last?, log)
  | .length => (.length log.length, log)
  | .policy => (.policy log.policy, log)
  | .revision => (.revision log.revision, log)

/-- The log after calls in order. -/
def performAll (log : Log) (calls : List Call) : Log :=
  calls.foldl (fun log call => (log.perform call).2) log

/-- Calls with their answers, in order. -/
abbrev Transcript := List (Call × Answer)

/-- The transcript of calls. -/
def transcript (log : Log) : List Call → Transcript
  | [] => []
  | call :: calls => (call, (log.perform call).1) :: (log.perform call).2.transcript calls

theorem performAll_concat (log : Log) (calls : List Call) (call : Call) :
    log.performAll (calls ++ [call]) = ((log.performAll calls).perform call).2 := by
  simp [performAll]

theorem transcript_concat (log : Log) (calls : List Call) (call : Call) :
    log.transcript (calls ++ [call])
      = log.transcript calls ++ [(call, ((log.performAll calls).perform call).1)] := by
  induction calls generalizing log with
  | nil => rfl
  | cons first calls ih =>
    rw [List.cons_append, transcript, ih, transcript, List.cons_append]
    rfl

/-! ### What a transcript tells -/

/-- Whether a call counts as a change of the log. -/
def Call.changes : Call → Bool
  | append _ => true
  | clear => true
  | setPolicy _ => true
  | _ => false

/-- The policy in force after a call. -/
def policyAfter (policy : Policy) : Call × Answer → Policy
  | (.setPolicy other, _) => other.clamped
  | _ => policy

/-- The policy in force after a transcript of a log that was made with a policy. -/
def policyIn (initial : Policy) (t : Transcript) : Policy := t.foldl policyAfter initial

/-- A call added an entry, and for such a message the policy then in force makes a request. -/
def AddedUnder (requests : Policy → Message → Bool) (initial : Policy) (before : Transcript)
    (call : Call × Answer) : Prop :=
  ∃ m id, call = (.append m, .outcome (.added id)) ∧ requests (policyIn initial before) m = true

/-- A request was made since it was last taken. -/
def Requested (requests : Policy → Message → Bool) (taken : Call) (initial : Policy)
    (t : Transcript) : Prop :=
  ∃ before call since, t = before ++ call :: since ∧ AddedUnder requests initial before call ∧
    ∀ later ∈ since, later.1 ≠ taken

/-- A policy reveals the severity of a message. -/
def revealing (policy : Policy) (m : Message) : Bool := policy.reveals m.severity

/-- A policy scrolls to each new entry. -/
def scrolling (policy : Policy) (_ : Message) : Bool := policy.autoScroll

section Transcripts

variable {requests : Policy → Message → Bool} {taken : Call} {initial : Policy} {t : Transcript}

theorem policyIn_concat (call : Call × Answer) :
    policyIn initial (t ++ [call]) = policyAfter (policyIn initial t) call := by
  simp [policyIn]

/-- Nothing is requested in an empty transcript. -/
theorem not_requested_nil : ¬Requested requests taken initial [] := by
  rintro ⟨before, call, since, h, -⟩
  simp at h

/-- **One more call:** a request was made by it, or before it and it does not take it. -/
theorem requested_concat (call : Call × Answer) :
    Requested requests taken initial (t ++ [call]) ↔
      AddedUnder requests initial t call ∨
        call.1 ≠ taken ∧ Requested requests taken initial t := by
  constructor
  · rintro ⟨before, made, since, h, hmade, hsince⟩
    rcases List.eq_nil_or_concat since with rfl | ⟨since, last, rfl⟩
    · obtain ⟨rfl, heq⟩ := List.append_inj' h rfl
      obtain rfl := List.singleton_inj.1 heq
      exact .inl hmade
    · rw [List.concat_eq_append] at h hsince
      rw [← List.cons_append, ← List.append_assoc] at h
      obtain ⟨rfl, heq⟩ := List.append_inj' h rfl
      obtain rfl := List.singleton_inj.1 heq
      obtain ⟨hsince, hlast⟩ := List.forall_mem_append.1 hsince
      exact .inr ⟨hlast call List.mem_cons_self, before, made, since, rfl, hmade, hsince⟩
  · rintro (hmade | ⟨hcall, before, made, since, rfl, hmade, hsince⟩)
    · exact ⟨t, call, [], rfl, hmade, fun _ h => absurd h List.not_mem_nil⟩
    · refine ⟨before, made, since ++ [call], by simp, hmade, ?_⟩
      exact List.forall_mem_append.2 ⟨hsince, List.forall_mem_singleton.2 hcall⟩

/-- A call that adds no entry requests nothing. -/
theorem not_addedUnder {call : Call} {answer : Answer}
    (h : ∀ id, answer ≠ .outcome (.added id)) :
    ¬AddedUnder requests initial t (call, answer) := by
  rintro ⟨m, id, heq, -⟩
  exact h id (Prod.mk.inj heq).2

/-- An added entry requests what the policy in force says. -/
theorem addedUnder_append {m : Message} {id : Nat} :
    AddedUnder requests initial t (.append m, .outcome (.added id)) ↔
      requests (policyIn initial t) m = true := by
  constructor
  · rintro ⟨m', id', heq, h⟩
    cases heq
    exact h
  · exact fun h => ⟨m, id, rfl, h⟩

end Transcripts

/-! ### What a log keeps of it -/

/-- A log made with a policy tells the same as the transcript of its calls. -/
structure Tells (initial : Policy) (t : Transcript) (log : Log) : Prop where
  policy : log.policy = policyIn initial t
  reveal : log.revealRequested = true ↔ Requested revealing .takeReveal initial t
  scroll : log.scrollRequested = true ↔ Requested scrolling .takeScroll initial t
  revision : log.revision = UInt64.ofNat (t.countP (·.1.changes))

namespace Tells

variable {initial : Policy} {t : Transcript} {log : Log}

theorem new (initial : Policy) (clock : Clock) : Tells initial [] (Log.new initial clock) where
  policy := rfl
  reveal := iff_of_false Bool.false_ne_true not_requested_nil
  scroll := iff_of_false Bool.false_ne_true not_requested_nil
  revision := rfl

/-- A call that adds no entry leaves a request as it was, unless it takes it. -/
theorem requested_of_quiet {requests : Policy → Message → Bool} {taken call : Call}
    {answer : Answer} {waits : Bool} (h : waits = true ↔ Requested requests taken initial t)
    (hquiet : ∀ id, answer ≠ .outcome (.added id)) (hcall : call ≠ taken) :
    waits = true ↔ Requested requests taken initial (t ++ [(call, answer)]) := by
  rw [requested_concat, or_iff_right (not_addedUnder hquiet), and_iff_right hcall]
  exact h

/-- The call that takes a request leaves none. -/
theorem requested_of_taken {requests : Policy → Message → Bool} {taken : Call} {answer : Answer}
    (hquiet : ∀ id, answer ≠ .outcome (.added id)) :
    false = true ↔ Requested requests taken initial (t ++ [(taken, answer)]) := by
  rw [requested_concat, or_iff_right (not_addedUnder hquiet)]
  exact iff_of_false Bool.false_ne_true fun h => h.1 rfl

/-- An added entry makes a request if the policy in force says so, and drops none. -/
theorem requested_of_added {requests : Policy → Message → Bool} {taken : Call} {waits : Bool}
    (h : waits = true ↔ Requested requests taken initial t)
    (hpolicy : log.policy = policyIn initial t) {m : Message} {id : Nat}
    (htaken : .append m ≠ taken) :
    (waits || requests log.policy m) = true ↔
      Requested requests taken initial (t ++ [(.append m, .outcome (.added id))]) := by
  rw [requested_concat, addedUnder_append, and_iff_right htaken, Bool.or_eq_true, or_comm, h,
    hpolicy]

/-- One more change moves the revision on. -/
theorem countP_concat (call : Call × Answer) :
    UInt64.ofNat ((t ++ [call]).countP (·.1.changes))
      = UInt64.ofNat (t.countP (·.1.changes)) + if call.1.changes then 1 else 0 := by
  rw [List.countP_append, UInt64.ofNat_add, List.countP_singleton]
  rcases call.1.changes with _ | _
  · rfl
  · rfl

/-- A call that adds no entry and takes no request. -/
theorem of_quiet (h : Tells initial t log) {call : Call} {answer : Answer} {log' : Log}
    (hanswer : ∀ id, answer ≠ .outcome (.added id)) (hreveal : call ≠ .takeReveal)
    (hscroll : call ≠ .takeScroll)
    (hpolicy : log'.policy = policyAfter log.policy (call, answer))
    (hrequests : log'.revealRequested = log.revealRequested ∧
      log'.scrollRequested = log.scrollRequested)
    (hrevision : log'.revision = log.revision + if call.changes then 1 else 0) :
    Tells initial (t ++ [(call, answer)]) log' where
  policy := by rw [policyIn_concat, hpolicy, h.policy]
  reveal := by
    rw [hrequests.1]
    exact requested_of_quiet h.reveal hanswer hreveal
  scroll := by
    rw [hrequests.2]
    exact requested_of_quiet h.scroll hanswer hscroll
  revision := by rw [countP_concat, hrevision, h.revision]

/-- **One call:** the log and the transcript go on telling the same. -/
theorem perform (h : Tells initial t log) (call : Call) :
    Tells initial (t ++ [(call, (log.perform call).1)]) (log.perform call).2 := by
  -- a call that only reads changes nothing
  have hread {call : Call} {answer : Answer} (hanswer : ∀ id, answer ≠ .outcome (.added id))
      (hreveal : call ≠ .takeReveal) (hscroll : call ≠ .takeScroll)
      (hpolicy : policyAfter log.policy (call, answer) = log.policy)
      (hchanges : call.changes = false) : Tells initial (t ++ [(call, answer)]) log :=
    h.of_quiet hanswer hreveal hscroll hpolicy.symm ⟨rfl, rfl⟩ (by simp [hchanges])
  cases call with
  | append m =>
    rcases log.append_cases m with ⟨e, rest, -, -, happ⟩ | ⟨-, happ⟩
    · simp only [Log.perform, happ]
      exact h.of_quiet nofun nofun nofun rfl ⟨rfl, rfl⟩ rfl
    · simp only [Log.perform, happ]
      refine ⟨?_, ?_, ?_, ?_⟩
      · rw [policyIn_concat]
        exact h.policy
      · exact requested_of_added h.reveal h.policy nofun
      · exact requested_of_added h.scroll h.policy nofun
      · rw [countP_concat, ← h.revision]
        rfl
  | clear => exact h.of_quiet nofun nofun nofun rfl ⟨rfl, rfl⟩ rfl
  | setPolicy policy => exact h.of_quiet nofun nofun nofun rfl ⟨rfl, rfl⟩ rfl
  | takeReveal =>
    refine ⟨?_, requested_of_taken nofun, requested_of_quiet h.scroll nofun nofun, ?_⟩
    · rw [policyIn_concat]
      exact h.policy
    · rw [countP_concat, ← h.revision]
      exact (UInt64.add_zero _).symm
  | takeScroll =>
    refine ⟨?_, requested_of_quiet h.reveal nofun nofun, requested_of_taken nofun, ?_⟩
    · rw [policyIn_concat]
      exact h.policy
    · rw [countP_concat, ← h.revision]
      exact (UInt64.add_zero _).symm
  | snapshot => exact hread nofun nofun nofun rfl rfl
  | since after => exact hread nofun nofun nofun rfl rfl
  | newest => exact hread nofun nofun nofun rfl rfl
  | length => exact hread nofun nofun nofun rfl rfl
  | policy => exact hread nofun nofun nofun rfl rfl
  | revision => exact hread nofun nofun nofun rfl rfl

/-- **A run:** after any calls of a new log they tell the same. -/
theorem performAll (initial : Policy) (clock : Clock) (calls : List Call) :
    Tells initial ((Log.new initial clock).transcript calls)
      ((Log.new initial clock).performAll calls) := by
  induction calls using List.reverseRecOn with
  | nil => exact new initial clock
  | append_singleton calls call ih =>
    rw [transcript_concat, performAll_concat]
    exact ih.perform call

end Tells

/-- **The signals are exact.** After any calls of a log made with any policy, `takeReveal` answers
yes just if since it was called last an append added an entry that the policy then in force reveals,
and `takeScroll` just if one added an entry under a policy that scrolls. A call that neither adds an
entry nor takes requests leaves both answers as they were, so clearing, changes of policy,
repetitions and reading do. The revision is the number of appends, clearings and changes of policy
as a word, and no other call moves it. -/
theorem signals_of_transcript (policy : Policy) (clock : Clock) (calls : List Call) :
    let log := (Log.new policy clock).performAll calls
    let t := (Log.new policy clock).transcript calls
    (∃ raised, (log.perform .takeReveal).1 = .request raised ∧
      (raised = true ↔ Requested revealing .takeReveal policy t)) ∧
    (∃ raised, (log.perform .takeScroll).1 = .request raised ∧
      (raised = true ↔ Requested scrolling .takeScroll policy t)) ∧
    (∀ call, (∀ id, (log.perform call).1 ≠ .outcome (.added id)) →
      (call ≠ .takeReveal →
        ((log.perform call).2.perform .takeReveal).1 = (log.perform .takeReveal).1) ∧
      (call ≠ .takeScroll →
        ((log.perform call).2.perform .takeScroll).1 = (log.perform .takeScroll).1)) ∧
    (log.perform .revision).1 = .revision (UInt64.ofNat (t.countP (·.1.changes))) ∧
    ∀ call, call.changes = false →
      ((log.perform call).2.perform .revision).1 = (log.perform .revision).1 := by
  intro log t
  have h : Tells policy t log := Tells.performAll policy clock calls
  refine ⟨⟨_, rfl, h.reveal⟩, ⟨_, rfl, h.scroll⟩,
    fun call hquiet => ⟨fun hcall => ?_, fun hcall => ?_⟩, congrArg Answer.revision h.revision,
    fun call hcall => ?_⟩
  · refine congrArg Answer.request (Bool.eq_iff_iff.2 ?_)
    exact (h.perform call).reveal.trans (Tells.requested_of_quiet h.reveal hquiet hcall).symm
  · refine congrArg Answer.request (Bool.eq_iff_iff.2 ?_)
    exact (h.perform call).scroll.trans (Tells.requested_of_quiet h.scroll hquiet hcall).symm
  · refine congrArg Answer.revision ?_
    rw [(h.perform call).revision, Tells.countP_concat, hcall, ← h.revision]
    exact UInt64.add_zero _

/-- A request outlives its entry; a repetition makes none. -/
example : ((Log.new { Policy.standard with revealOnWarning := true }).transcript
      [.append ⟨.internal, "a", .warning⟩, .clear, .takeReveal, .append ⟨.internal, "a", .warning⟩,
        .append ⟨.internal, "a", .warning⟩, .takeReveal, .takeReveal, .revision]).map (·.2)
    = [.outcome (.added 1), .nothing, .request true, .outcome (.added 2), .outcome (.repeated 2 2),
        .request true, .request false, .revision 4] := by decide

end Log
end SnippetConsole
