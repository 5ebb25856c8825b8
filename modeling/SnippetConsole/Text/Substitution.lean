/-
# Replacing a slot in a text

`replaceAll` replaces every occurrence of a slot, from left to right, without looking
again at what it has put in; `replaceFirst` replaces the first occurrence only. A slot is
a nonempty list of characters.
-/

namespace SnippetConsole
namespace Text

/-- `cs` with each occurrence of the slot `s :: slot` replaced by `value`, from left to
right and without overlaps. -/
def replaceChars (s : Char) (slot value : List Char) : List Char → List Char
  | [] => []
  | c :: cs =>
    if (s :: slot).isPrefixOf (c :: cs) then
      value ++ replaceChars s slot value (cs.drop slot.length)
    else c :: replaceChars s slot value cs
termination_by cs => cs.length
decreasing_by
  · simp only [List.length_drop, List.length_cons]; omega
  · simp

/-- What stands before and after the first occurrence of `slot`, if it occurs. -/
def splitAtFirst? (slot : List Char) : List Char → Option (List Char × List Char)
  | [] => if slot.isEmpty then some ([], []) else none
  | c :: cs =>
    if slot.isPrefixOf (c :: cs) then some ([], (c :: cs).drop slot.length)
    else (splitAtFirst? slot cs).map fun (before, after) => (c :: before, after)

/-- **A split text is put together again:** before, slot, after. -/
theorem eq_of_splitAtFirst? {slot cs before after : List Char}
    (h : splitAtFirst? slot cs = some (before, after)) : cs = before ++ slot ++ after := by
  induction cs generalizing before with
  | nil =>
    simp only [splitAtFirst?] at h
    split at h
    · simp_all
    · simp at h
  | cons c cs ih =>
    simp only [splitAtFirst?] at h
    split at h
    · rename_i hp
      obtain ⟨rest, hrest⟩ := List.isPrefixOf_iff_prefix.1 hp
      obtain ⟨rfl, rfl⟩ := Prod.mk.inj (Option.some.inj h)
      simp [← hrest]
    · obtain ⟨⟨b, a⟩, hs, heq⟩ := Option.map_eq_some_iff.1 h
      obtain ⟨rfl, rfl⟩ := Prod.mk.inj heq
      simp [ih hs]

/-- `s` with each occurrence of `slot` replaced by `value`; an empty slot replaces nothing. -/
def replaceAll (slot value s : String) : String :=
  match slot.toList with
  | [] => s
  | c :: cs => String.ofList (replaceChars c cs value.toList s.toList)

/-- `s` with the first occurrence of `slot` replaced by `value`. -/
def replaceFirst (slot value s : String) : String :=
  match splitAtFirst? slot.toList s.toList with
  | none => s
  | some (before, after) => String.ofList (before ++ value.toList ++ after)

end Text
end SnippetConsole
