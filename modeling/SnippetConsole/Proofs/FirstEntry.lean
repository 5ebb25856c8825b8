/-
# The first registration decides

A library registers as often as it likes, and the host notes each entry point that it is given
(`Registrar.receive`). Notes are only added behind others, so what is noted first is the first entry
point (`head?_receiveAll`), and nothing but that is looked at (`makeInstance_eq`): it decides the
answer, whatever is registered after it (`Loader.instantiate_decides`).

A library that can be mapped is counted once, whatever becomes of it, and one that cannot is not
(`Loader.mapped_instantiateAll`).
-/

import SnippetConsole.Loadable.Loader
import SnippetConsole.Proofs.LenientText

namespace SnippetConsole
namespace Loadable

open Execution (Failure)

/-! ### What is registered first -/

/-- There is no entry point among registrations. -/
def NoEntry (registrations : List Registration) : Prop := ∀ point, .entry point ∉ registrations

/-- **There is a first entry point or none.** -/
theorem entry_cases (registrations : List Registration) :
    (∃ front point back, registrations = front ++ .entry point :: back ∧ NoEntry front) ∨
      NoEntry registrations := by
  induction registrations with
  | nil => exact .inr fun _ => List.not_mem_nil
  | cons first rest ih =>
    by_cases hfirst : ∃ point, first = .entry point
    · obtain ⟨point, rfl⟩ := hfirst
      exact .inl ⟨[], point, rest, rfl, fun _ => List.not_mem_nil⟩
    · have hcons {others : List Registration} (h : NoEntry others) : NoEntry (first :: others) := by
        intro point hmem
        rcases List.mem_cons.1 hmem with heq | hmem
        · exact hfirst ⟨point, heq.symm⟩
        · exact h point hmem
      rcases ih with ⟨front, point, back, rfl, hfront⟩ | hnone
      · exact .inl ⟨first :: front, point, back, rfl, hcons hfront⟩
      · exact .inr (hcons hnone)

/-- Registrations without an entry point are passed over. -/
theorem firstEntry?_append {front : List Registration} (h : NoEntry front) (n : Nat)
    (rest : List Registration) :
    firstEntry? n (front ++ rest) = firstEntry? (n + front.length) rest := by
  induction front generalizing n with
  | nil => rfl
  | cons first front ih =>
    have hrest := ih (fun point hmem => h point (List.mem_cons_of_mem _ hmem)) (n + 1)
    rw [List.length_cons, Nat.add_comm front.length 1, ← Nat.add_assoc, ← hrest]
    cases first with
    | entry point => exact absurd List.mem_cons_self (h point)
    | nothing => rfl
    | withoutContext => rfl

/-- What comes first of entry points is found, whatever follows it. -/
theorem firstEntry?_entry {front : List Registration} (h : NoEntry front) (point : EntryPoint)
    (back : List Registration) :
    firstEntry? 0 (front ++ .entry point :: back) = some (front.length, point) := by
  rw [firstEntry?_append h, firstEntry?, Nat.zero_add]

/-- Without an entry point nothing is found. -/
theorem firstEntry?_of_noEntry {registrations : List Registration} (h : NoEntry registrations) :
    firstEntry? 0 registrations = none := by
  have hall := firstEntry?_append h 0 []
  rwa [List.append_nil] at hall

/-! ### The host during the registration -/

/-- What the host notes of an entry point: all of one of its own layout, of others the version
alone. -/
inductive Noted where
  | compatible (index : Nat) (point : EntryPoint) (name : String)
  | incompatible (version : UInt32)

/-- The note of the entry point of a registration. -/
def Noted.of (index : Nat) (point : EntryPoint) : Noted :=
  if point.version ≠ layoutVersion then .incompatible point.version
  else .compatible index point (textOf point.name)

/-- What the host keeps while a library registers: how many registrations there were, and its
notes. -/
structure Registrar where
  next : Nat
  noted : List Noted

namespace Registrar

/-- The host after a registration. -/
def receive (r : Registrar) : Registration → Registrar
  | .entry point => ⟨r.next + 1, r.noted ++ [.of r.next point]⟩
  | _ => { r with next := r.next + 1 }

/-- The host after registrations, in order. -/
def receiveAll (r : Registrar) (registrations : List Registration) : Registrar :=
  registrations.foldl receive r

/-- **The first note** stays the first; as long as there is none, the first entry point gives it. -/
theorem head?_receiveAll (r : Registrar) (registrations : List Registration) :
    (r.receiveAll registrations).noted.head?
      = r.noted.head?.or (Option.map (fun (index, point) => .of index point) <|
          firstEntry? r.next registrations) := by
  induction registrations generalizing r with
  | nil => simp [receiveAll, firstEntry?]
  | cons first rest ih =>
    show ((r.receive first).receiveAll rest).noted.head? = _
    rw [ih]
    cases first with
    | entry point => cases hnoted : r.noted <;> simp [receive, firstEntry?, hnoted]
    | nothing => rfl
    | withoutContext => rfl

end Registrar

/-- **An instance is made of the first note.** -/
theorem makeInstance_eq (registrations : List Registration) :
    makeInstance registrations =
      match ((Registrar.mk 0 []).receiveAll registrations).noted.head? with
      | none => (.error .noEntryPoint, [])
      | some (.incompatible version) => (.error (wrongLayout version), [])
      | some (.compatible index point name) =>
        if point.constructs then (.ok ⟨index, point, name, 0, 0⟩, [.create index true])
        else (.error (.instantiationFailed name), [.create index false]) := by
  rw [Registrar.head?_receiveAll, makeInstance]
  rcases firstEntry? 0 registrations with _ | ⟨index, point⟩
  · rfl
  · by_cases hversion : point.version = layoutVersion
    · simp [Noted.of, hversion]
    · simp [Noted.of, hversion]

/-! ### The answer -/

/-- What a mapped library is answered with: an instance or a failure, and the calls that the unit
sees. A library has no registration function, no entry point, or a first one; that is of another
layout, its constructor fails, or it is made. -/
inductive Decided (library : Library) : Except Failure Instance × List Call → Prop
  | noFunction (h : library.registrations = none) : Decided library (.error .noEntryPoint, [])
  | noEntry {registrations} (h : library.registrations = some registrations)
    (hnone : NoEntry registrations) : Decided library (.error .noEntryPoint, [.register])
  | otherLayout {front point back}
    (h : library.registrations = some (front ++ .entry point :: back)) (hfront : NoEntry front)
    (hversion : point.version ≠ 1) :
    Decided library (.error (.loadFailed ("entry point uses ABI version "
      ++ toString point.version.toNat ++ ", host expects 1")), [.register])
  | notMade {front point back name}
    (h : library.registrations = some (front ++ .entry point :: back)) (hfront : NoEntry front)
    (hversion : point.version = 1) (hmake : point.constructs = false)
    (hname : Text.Decodes (point.name.getD []) name.toList) :
    Decided library (.error (.instantiationFailed name), [.register, .create front.length false])
  | made {front point back name}
    (h : library.registrations = some (front ++ .entry point :: back)) (hfront : NoEntry front)
    (hversion : point.version = 1) (hmake : point.constructs = true)
    (hname : Text.Decodes (point.name.getD []) name.toList) :
    Decided library (.ok ⟨front.length, point, name, 0, 0⟩,
      [.register, .create front.length true])

/-- The words for another layout. -/
theorem wrongLayout_eq (version : UInt32) :
    wrongLayout version = .loadFailed ("entry point uses ABI version " ++ toString version.toNat
      ++ ", host expects 1") := by
  rw [wrongLayout, String.append_assoc]
  rfl

namespace Loader

/-- A library with a registration function is answered with what is made of its registrations. -/
theorem instantiate_eq (loader : Loader) (registrations : List Registration) (reason : String) :
    loader.instantiate (some ⟨some registrations⟩) reason
      = (((makeInstance registrations).1, .register :: (makeInstance registrations).2),
        ⟨loader.mapped + 1⟩) := rfl

/-- **A mapped library is answered for its first entry point.** -/
theorem decided_instantiate (loader : Loader) (library : Library) (reason : String) :
    Decided library (loader.instantiate (some library) reason).1 := by
  rcases library with ⟨_ | registrations⟩
  · exact .noFunction rfl
  · rw [instantiate_eq]
    rcases entry_cases registrations with ⟨front, point, back, rfl, hfront⟩ | hnone
    · simp only [makeInstance, firstEntry?_entry hfront point back]
      have hname : Text.Decodes (point.name.getD []) (textOf point.name).toList :=
        Text.lossy_eq_iff.1 rfl
      by_cases hversion : point.version = layoutVersion
      · rw [if_neg (not_not_intro hversion)]
        rcases hmake : point.constructs with _ | _
        · exact .notMade rfl hfront hversion hmake hname
        · exact .made rfl hfront hversion hmake hname
      · rw [if_pos hversion, wrongLayout_eq]
        exact .otherLayout rfl hfront hversion
    · simp only [makeInstance, firstEntry?_of_noEntry hnone]
      exact .noEntry rfl hnone

/-- What is registered after the first entry point changes nothing. -/
theorem instantiate_congr (loader : Loader) {front : List Registration} (h : NoEntry front)
    (point : EntryPoint) (back back' : List Registration) (reason : String) :
    loader.instantiate (some ⟨some (front ++ .entry point :: back)⟩) reason
      = loader.instantiate (some ⟨some (front ++ .entry point :: back')⟩) reason := by
  have hmake : makeInstance (front ++ .entry point :: back)
      = makeInstance (front ++ .entry point :: back') := by
    rw [makeInstance, makeInstance, firstEntry?_entry h, firstEntry?_entry h]
  rw [instantiate_eq, instantiate_eq, hmake]

/-- **The first registration decides.** What cannot be mapped fails to load, for the reason that the
system's loader gives, and is not counted; what can is counted once, and answered for the first
entry point it registers, whatever it registers after that. -/
theorem instantiate_decides (loader : Loader) (reason : String) :
    loader.instantiate none reason = ((.error (.loadFailed reason), []), loader) ∧
    (∀ library, (loader.instantiate (some library) reason).2 = ⟨loader.mapped + 1⟩ ∧
      Decided library (loader.instantiate (some library) reason).1) ∧
    ∀ front point back back', NoEntry front →
      loader.instantiate (some ⟨some (front ++ .entry point :: back)⟩) reason
        = loader.instantiate (some ⟨some (front ++ .entry point :: back')⟩) reason :=
  ⟨rfl, fun library => ⟨rfl, loader.decided_instantiate library reason⟩,
    fun _ point back back' h => loader.instantiate_congr h point back back' reason⟩

/-- An entry point of another layout. -/
def foreignPoint : EntryPoint := ⟨2, none, true, [], []⟩

/-- An entry point of the host's layout. -/
def ownPoint : EntryPoint := ⟨1, none, true, [], []⟩

/-- An entry point of another layout is not made up for by a later one. -/
theorem instantiate_foreignPoint :
    NoEntry [.nothing] ∧
    Loader.new.instantiate (some ⟨some [.nothing, .entry foreignPoint, .entry ownPoint]⟩)
      = Loader.new.instantiate (some ⟨some [.nothing, .entry foreignPoint]⟩) ∧
    Loader.new.instantiate (some ⟨some [.nothing, .entry foreignPoint]⟩)
      = ((.error (.loadFailed "entry point uses ABI version 2, host expects 1"), [.register]),
        ⟨1⟩) := by
  have hfront : NoEntry [.nothing] := fun point => by simp
  refine ⟨hfront, ?_, by decide⟩
  exact (instantiate_decides .new _).2.2 [.nothing] foreignPoint [.entry ownPoint] [] hfront

/-- The loader after libraries one after the other; none stands for a file that cannot be mapped. -/
def instantiateAll (loader : Loader) (libraries : List (Option Library)) : Loader :=
  libraries.foldl (fun loader library => (loader.instantiate library).2) loader

/-- **Every library that can be mapped is counted,** and no other. -/
theorem mapped_instantiateAll (loader : Loader) (libraries : List (Option Library)) :
    (loader.instantiateAll libraries).mapped
      = loader.mapped + libraries.countP Option.isSome := by
  induction libraries generalizing loader with
  | nil => rfl
  | cons library libraries ih =>
    show ((loader.instantiate library).2.instantiateAll libraries).mapped = _
    rw [ih]
    cases library with
    | none => simp [instantiate]
    | some library =>
      simp [instantiate]
      omega

end Loader
end Loadable
end SnippetConsole
