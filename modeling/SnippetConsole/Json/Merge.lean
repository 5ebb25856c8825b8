/-
# Merging a document over another

| overlay | base | result |
| --- | --- | --- |
| `null` | any | the base |
| object | object | key by key; a key that only the overlay has is taken over unless it is `null` |
| any other | any | the overlay, as it is |

Arrays are replaced as a whole.
-/

import SnippetConsole.Json.Basic

namespace SnippetConsole
namespace Json

mutual

/-- `overlay` merged over `base`. -/
def merge (base : Value) : (overlay : Value) → Value
  | .null => base
  | .object overlay =>
    match base with
    | .object members => .object (mergeMembers members overlay)
    | _ => .object overlay
  | overlay => overlay

/-- The members of one object merged over those of another, one at a time. -/
def mergeMembers (base : Members) : (overlay : Members) → Members
  | [] => base
  | (k, v) :: overlay =>
    match get? k base with
    | some old => mergeMembers (insert k (merge old v) base) overlay
    | none => mergeMembers (if v.isNull then base else insert k v base) overlay

end

/-- `null` over anything changes nothing. -/
@[simp] theorem merge_null (base : Value) : merge base .null = base := by
  simp [merge]

/-- An object over an object is merged member by member. -/
theorem merge_object (base overlay : Members) :
    merge (.object base) (.object overlay) = .object (mergeMembers base overlay) := by
  simp [merge]

end Json
end SnippetConsole
