/-
# Numbers and truth values as texts

What a text spells is told by a form that does not mention how it is read: blanks, the spelling, and
blanks (`Text.Padded`).

| value | spelling |
| --- | --- |
| a number | at most one plus, then decimal digits, at least one (`SpellsNumber`) |
| a truth value | one of its words, upper and lower case of ASCII being alike (`SpellsTruth`) |

No spelling has a blank in it, so there is no doubt which characters are the spelling, and reading
finds them (`trimChars_eq_iff`). A text is read as a value just if it spells the value
(`numberInRange?_eq_some_iff`, `truthOfWord?_eq_some_iff`).

A number is spelled without a limit and read in a word of 64 bits. Each digit takes the word to the
number with that digit behind it, or there is no such word (`withDigit?_eq_some_iff`). The number that
was spelled so far never gets smaller, so if it does not fit somewhere it does not fit at the end
either: the word is the number spelled, and is missing just if that is too large
(`foldlM_withDigit?_eq_some_iff`).
-/

import SnippetConsole.Settings.Override
import Mathlib.Data.List.Induction
import Mathlib.Data.List.TakeWhile
import Mathlib.Data.Nat.Digits.Defs

namespace SnippetConsole

/-! ### Blanks around a spelling -/

namespace Text

/-- The characters `cs` are `ds` with blanks before and behind it, or without. -/
def Padded (ds cs : List Char) : Prop :=
  ∃ before after, cs = before ++ ds ++ after ∧ (∀ c ∈ before, isBlank c = true) ∧
    ∀ c ∈ after, isBlank c = true

/-- Trimming takes blanks away, and nothing else. -/
theorem padded_trimChars (cs : List Char) : Padded (trimChars cs) cs := by
  have hblank (cs : List Char) : ∀ c ∈ cs.takeWhile isBlank, isBlank c = true :=
    fun c hc => List.mem_takeWhile_imp hc
  have hrest : cs.dropWhile isBlank
      = trimChars cs ++ ((cs.dropWhile isBlank).reverse.takeWhile isBlank).reverse := by
    rw [trimChars, dropWhileEnd, ← List.reverse_append, List.takeWhile_append_dropWhile,
      List.reverse_reverse]
  refine ⟨cs.takeWhile isBlank, ((cs.dropWhile isBlank).reverse.takeWhile isBlank).reverse, ?_,
    hblank cs, fun c hc => hblank _ c (List.mem_reverse.1 hc)⟩
  rw [List.append_assoc, ← hrest, List.takeWhile_append_dropWhile]

/-- **Characters that are not blank are what is left of a text by trimming** just if there are only
blanks around them. -/
theorem trimChars_eq_iff {ds cs : List Char} (hds : ∀ d ∈ ds, isBlank d = false) :
    trimChars cs = ds ↔ Padded ds cs := by
  refine ⟨fun h => h ▸ padded_trimChars cs, ?_⟩
  rintro ⟨before, after, rfl, hbefore, hafter⟩
  rw [trimChars, List.append_assoc, dropWhile_append_of_forall hbefore]
  cases ds with
  | nil =>
    have hnone : after.dropWhile isBlank = [] := List.dropWhile_eq_nil_iff.2 hafter
    rw [List.nil_append, hnone]
    rfl
  | cons d ds =>
    obtain ⟨init, last, hlast⟩ := (List.eq_nil_or_concat (d :: ds)).resolve_left nofun
    rw [List.concat_eq_append] at hlast
    rw [List.cons_append, List.dropWhile_cons_of_neg (by simp [hds d]), ← List.cons_append,
      dropWhileEnd_append_of_forall hafter, hlast]
    exact dropWhileEnd_append_singleton (hds last (by simp [hlast]))

/-- A blank character has one case. -/
theorem toLower_of_isBlank {c : Char} (h : isBlank c = true) : c.toLower = c := by
  refine dif_neg fun ⟨hge, hle⟩ => ?_
  have hge : 65 ≤ c.toNat := hge
  have hle : c.toNat ≤ 90 := hle
  simp only [isBlank, Bool.or_eq_true, Bool.and_eq_true, decide_eq_true_eq] at h
  omega

end Text

/-! ### Numbers -/

namespace Decimal

/-- Where the digits are among the characters. -/
theorem toNat_of_isDigit {d : Char} (h : isDigit d = true) : 48 ≤ d.toNat ∧ d.toNat ≤ 57 := by
  simpa [isDigit, Char.le_def, UInt32.le_iff_toNat_le] using h

/-- A digit is not blank. -/
theorem isBlank_of_isDigit {d : Char} (h : isDigit d = true) : Text.isBlank d = false := by
  obtain ⟨hge, hle⟩ := toNat_of_isDigit h
  rw [Bool.eq_false_iff]
  intro hblank
  simp only [Text.isBlank, Bool.or_eq_true, Bool.and_eq_true, decide_eq_true_eq] at hblank
  omega

/-- The number that digits spell: the last digit counts once, the one before it ten times, and so
on. -/
theorem valueOf_eq_ofDigits (ds : List Char) :
    valueOf ds = Nat.ofDigits 10 (ds.reverse.map digitValue) := by
  induction ds using List.reverseRecOn with
  | nil => rfl
  | append_singleton ds d ih =>
    rw [valueOf_append_singleton, ih, List.reverse_append, List.reverse_singleton,
      List.singleton_append, List.map_cons, Nat.ofDigits_cons]
    omega

/-- A result that is given up just if it overflows is the number it should be, if that fits. -/
theorem ite_overflow_eq_some_iff {overflow : Bool} {r c : UInt64} {n : Nat}
    (hover : overflow = true → 2 ^ 64 ≤ n) (hfits : ¬overflow = true → r.toNat = n) :
    (if overflow then none else some r) = some c ↔ c.toNat = n := by
  split
  · rename_i h
    have hlarge := hover h
    have hlt := c.toNat_lt
    refine ⟨nofun, fun hc => ?_⟩
    omega
  · rename_i h
    rw [Option.some.injEq, ← hfits h, UInt64.toNat_inj, eq_comm]

/-- A product is there just if it fits. -/
theorem product?_eq_some_iff {a b c : UInt64} :
    product? a b = some c ↔ c.toNat = a.toNat * b.toNat :=
  ite_overflow_eq_some_iff of_decide_eq_true BitVec.toNat_mul_of_not_umulOverflow

/-- A sum is there just if it fits. -/
theorem sum?_eq_some_iff {a b c : UInt64} : sum? a b = some c ↔ c.toNat = a.toNat + b.toNat :=
  ite_overflow_eq_some_iff of_decide_eq_true BitVec.toNat_add_of_not_uaddOverflow

/-- What is no larger than a word fits. -/
theorem toNat_ofNat_of_le {n : Nat} {v : UInt64} (h : n ≤ v.toNat) : (UInt64.ofNat n).toNat = n :=
  UInt64.toNat_ofNat_of_lt' (h.trans_lt v.toNat_lt)

/-- **One more digit:** the new word is the number with that digit behind it. -/
theorem withDigit?_eq_some_iff {w v : UInt64} {d : Char} :
    withDigit? w d = some v ↔ isDigit d = true ∧ v.toNat = w.toNat * 10 + digitValue d := by
  rw [withDigit?, Option.ite_none_right_eq_some, Option.bind_eq_some_iff]
  refine and_congr_right fun hd => ?_
  have hvalue : (UInt64.ofNat (digitValue d)).toNat = digitValue d := by
    refine UInt64.toNat_ofNat_of_lt' ?_
    obtain ⟨-, hle⟩ := toNat_of_isDigit hd
    rw [digitValue, UInt64.size]
    omega
  have hten : (10 : UInt64).toNat = 10 := rfl
  simp only [product?_eq_some_iff, sum?_eq_some_iff, hvalue, hten]
  constructor
  · rintro ⟨tens, htens, hv⟩
    rw [hv, htens]
  · intro hv
    -- the tens fit because the word that the digit completes does
    have hle : w.toNat * 10 ≤ v.toNat := by omega
    exact ⟨_, toNat_ofNat_of_le hle, by rw [hv, toNat_ofNat_of_le hle]⟩

/-- **All digits:** the word is the number that they spell. -/
theorem foldlM_withDigit?_eq_some_iff {ds : List Char} {v : UInt64} :
    ds.foldlM withDigit? 0 = some v ↔
      (∀ d ∈ ds, isDigit d = true) ∧ v.toNat = valueOf ds := by
  induction ds using List.reverseRecOn generalizing v with
  | nil =>
    rw [List.foldlM_nil, Option.pure_def, Option.some.injEq, eq_comm, ← UInt64.toNat_inj]
    exact ⟨fun h => ⟨nofun, h⟩, And.right⟩
  | append_singleton ds d ih =>
    simp only [List.foldlM_append, List.foldlM_cons, List.foldlM_nil, bind_pure, Option.bind_eq_bind,
      Option.bind_eq_some_iff, ih, withDigit?_eq_some_iff, List.forall_mem_append,
      List.forall_mem_singleton, valueOf_append_singleton]
    constructor
    · rintro ⟨w, ⟨hds, hw⟩, hd, hv⟩
      exact ⟨⟨hds, hd⟩, by rw [hv, hw]⟩
    · rintro ⟨⟨hds, hd⟩, hv⟩
      -- the number before the last digit is no larger than the one with it
      have hle : valueOf ds ≤ v.toNat := by omega
      exact ⟨_, ⟨hds, toNat_ofNat_of_le hle⟩, hd, by rw [hv, toNat_ofNat_of_le hle]⟩

/-- Characters are read as a word just if they are digits, at least one, and the number fits. -/
theorem word?_eq_some_iff {ds : List Char} {w : UInt64} :
    word? ds = some w ↔ ds ≠ [] ∧ (∀ d ∈ ds, isDigit d = true) ∧
      w.toNat = Nat.ofDigits 10 (ds.reverse.map digitValue) := by
  rw [← valueOf_eq_ofDigits]
  cases ds with
  | nil => exact iff_of_false (Option.some_ne_none w).symm fun h => h.1 rfl
  | cons d ds =>
    rw [word?, foldlM_withDigit?_eq_some_iff]
    exact (and_iff_right (List.cons_ne_nil d ds)).symm

end Decimal

namespace Settings

open Text (Padded)

/-- The digits `ds`, behind a plus or without one. -/
inductive Signed (ds : List Char) : List Char → Prop
  | plain : Signed ds ds
  | plus : Signed ds ('+' :: ds)

/-- The text spells the number: but for blanks around them it is decimal digits, at least one, behind
at most one plus. -/
def SpellsNumber (text : String) (n : Nat) : Prop :=
  ∃ ds cs, Padded cs text.toList ∧ Signed ds cs ∧ ds ≠ [] ∧ (∀ d ∈ ds, Decimal.isDigit d = true) ∧
    n = Nat.ofDigits 10 (ds.reverse.map Decimal.digitValue)

/-- What is read are the digits behind a plus, or all characters if the first one is no plus. -/
theorem exists_signed (cs : List Char) : ∃ ds, Signed ds cs ∧
    (∀ ds', Signed ds' cs → (∀ d ∈ ds', Decimal.isDigit d = true) → ds' = ds) ∧
    spelledWord? cs = Decimal.word? ds := by
  by_cases hplus : ∃ ds, cs = '+' :: ds
  · obtain ⟨ds, rfl⟩ := hplus
    refine ⟨ds, .plus, fun ds' hsigned hdigits => ?_, rfl⟩
    cases hsigned with
    | plus => rfl
    | plain => exact absurd (hdigits '+' List.mem_cons_self) (by decide)
  · refine ⟨cs, .plain, fun ds' hsigned _ => ?_, ?_⟩
    · cases hsigned with
      | plain => rfl
      | plus => exact absurd ⟨ds', rfl⟩ hplus
    · rw [spelledWord?]
      exact fun ds heq => hplus ⟨ds, heq⟩

/-- Characters are read as a word just if they are digits, signed or not, of a number that fits. -/
theorem spelledWord?_eq_some_iff {cs : List Char} {w : UInt64} :
    spelledWord? cs = some w ↔ ∃ ds, Signed ds cs ∧ ds ≠ [] ∧
      (∀ d ∈ ds, Decimal.isDigit d = true) ∧
      w.toNat = Nat.ofDigits 10 (ds.reverse.map Decimal.digitValue) := by
  obtain ⟨ds, hsigned, hunique, hread⟩ := exists_signed cs
  rw [hread, Decimal.word?_eq_some_iff]
  constructor
  · exact fun h => ⟨ds, hsigned, h⟩
  · rintro ⟨ds', hsigned', hne, hdigits, hw⟩
    obtain rfl := hunique ds' hsigned' hdigits
    exact ⟨hne, hdigits, hw⟩

/-- No blank is among digits, signed or not. -/
theorem Signed.isBlank_eq_false {ds cs : List Char} (hsigned : Signed ds cs)
    (hdigits : ∀ d ∈ ds, Decimal.isDigit d = true) : ∀ c ∈ cs, Text.isBlank c = false := by
  have hds : ∀ d ∈ ds, Text.isBlank d = false :=
    fun d hd => Decimal.isBlank_of_isDigit (hdigits d hd)
  cases hsigned with
  | plain => exact hds
  | plus => exact List.forall_mem_cons.2 ⟨by decide, hds⟩

/-- What a text spells is spelled by what is left of it by trimming. -/
theorem spellsNumber_iff {text : String} {n : Nat} :
    SpellsNumber text n ↔ ∃ ds, Signed ds (Text.trimChars text.toList) ∧ ds ≠ [] ∧
      (∀ d ∈ ds, Decimal.isDigit d = true) ∧
      n = Nat.ofDigits 10 (ds.reverse.map Decimal.digitValue) := by
  constructor
  · rintro ⟨ds, cs, hpadded, hsigned, hne, hdigits, hn⟩
    rw [(Text.trimChars_eq_iff (hsigned.isBlank_eq_false hdigits)).2 hpadded]
    exact ⟨ds, hsigned, hne, hdigits, hn⟩
  · rintro ⟨ds, hsigned, hds⟩
    exact ⟨ds, _, Text.padded_trimChars text.toList, hsigned, hds⟩

/-- A text spells one number at most. -/
theorem SpellsNumber.unique {text : String} {n m : Nat} (hn : SpellsNumber text n)
    (hm : SpellsNumber text m) : n = m := by
  obtain ⟨ds, hsigned, -, hdigits, rfl⟩ := spellsNumber_iff.1 hn
  obtain ⟨ds', hsigned', -, hdigits', rfl⟩ := spellsNumber_iff.1 hm
  obtain ⟨_, -, hunique, -⟩ := exists_signed (Text.trimChars text.toList)
  rw [hunique ds hsigned hdigits, hunique ds' hsigned' hdigits']

/-- **A text is read as a number** of a range just if it spells the number, the number is in the
range and it is below `2 ^ 64`. -/
theorem numberInRange?_eq_some_iff {text : String} {least greatest n : Nat} :
    numberInRange? text least greatest = some n ↔
      SpellsNumber text n ∧ n < 2 ^ 64 ∧ least ≤ n ∧ n ≤ greatest := by
  have hspells (w : UInt64) : spelledWord? (Text.trimChars text.toList) = some w ↔
      SpellsNumber text w.toNat := by
    rw [spelledWord?_eq_some_iff, spellsNumber_iff]
  rw [numberInRange?]
  constructor
  · intro hread
    split at hread
    · contradiction
    · rename_i w hw
      obtain ⟨hbounds, hn⟩ := Option.ite_none_right_eq_some.1 hread
      obtain rfl := Option.some.inj hn
      exact ⟨(hspells w).1 hw, w.toNat_lt, hbounds⟩
  · rintro ⟨hspelled, hlt, hbounds⟩
    have htoNat : (UInt64.ofNat n).toNat = n := UInt64.toNat_ofNat_of_lt' hlt
    rw [(hspells (UInt64.ofNat n)).2 (by rwa [htoNat])]
    simp only [htoNat]
    exact if_pos hbounds

/-- **A number between bounds is read just where it is spelled.** With an upper bound below `2 ^ 64` a
text is read as a number just if it spells the number and the number is between the bounds. So a text
that spells `2 ^ 64` or more, with however many digits, is not read, whatever the number leaves
modulo `2 ^ 64`. -/
theorem numbers_read_as_spelled {greatest : Nat} (hgreatest : greatest < 2 ^ 64) (least : Nat)
    (text : String) :
    (∀ n, numberInRange? text least greatest = some n ↔
      SpellsNumber text n ∧ least ≤ n ∧ n ≤ greatest) ∧
    ∀ n, SpellsNumber text n → 2 ^ 64 ≤ n → numberInRange? text least greatest = none := by
  have hread (n : Nat) : numberInRange? text least greatest = some n ↔
      SpellsNumber text n ∧ least ≤ n ∧ n ≤ greatest := by
    rw [numberInRange?_eq_some_iff]
    exact and_congr_right fun _ => ⟨And.right, fun h => ⟨h.2.trans_lt hgreatest, h⟩⟩
  refine ⟨hread, fun n hspelled hlarge => Option.eq_none_iff_forall_ne_some.2 fun m hm => ?_⟩
  obtain ⟨hspelled', -, hle⟩ := (hread m).1 hm
  obtain rfl := hspelled.unique hspelled'
  omega

/-- The largest word is read, also with zeros in front of it; `2 ^ 64 + 10`, which leaves 10, is
not. -/
theorem numberInRange?_around_word :
    2 ^ 64 - 1 < 2 ^ 64 ∧ SpellsNumber "18446744073709551626" (2 ^ 64 + 10) ∧
    numberInRange? "\u00a0+0018446744073709551615\n" 10 (2 ^ 64 - 1) = some (2 ^ 64 - 1) ∧
    numberInRange? "18446744073709551626" 10 (2 ^ 64 - 1) = none := by
  have hword : SpellsNumber "\u00a0+0018446744073709551615\n" (2 ^ 64 - 1) :=
    ⟨"0018446744073709551615".toList, "+0018446744073709551615".toList,
      ⟨['\u00a0'], ['\n'], by decide, List.all_eq_true.1 rfl, List.all_eq_true.1 rfl⟩, .plus,
      by decide, List.all_eq_true.1 rfl, by decide⟩
  have hlarge : SpellsNumber "18446744073709551626" (2 ^ 64 + 10) :=
    ⟨"18446744073709551626".toList, _, ⟨[], [], by decide, nofun, nofun⟩, .plain, by decide,
      List.all_eq_true.1 rfl, by decide⟩
  refine ⟨by decide, hlarge, ?_, ?_⟩
  · exact ((numbers_read_as_spelled (by decide) 10 _).1 _).2 ⟨hword, by decide, le_rfl⟩
  · exact (numbers_read_as_spelled (by decide) 10 _).2 _ hlarge (by decide)

/-! ### Truth values -/

/-- The words for a truth value. -/
def wordsFor : Bool → List String
  | true => ["true", "1", "yes", "on"]
  | false => ["false", "0", "no", "off"]

/-- A word is looked up among those for true, then among those for false; it is in one of the lists at
most. -/
theorem ofWord_eq_some_iff {word : String} {b : Bool} :
    (if trueWords.contains word then some true
      else if falseWords.contains word then some false else none) = some b ↔
      word ∈ wordsFor b := by
  have hapart : ∀ word ∈ wordsFor true, word ∉ wordsFor false := by decide
  change (if (wordsFor true).contains word then some true
    else if (wordsFor false).contains word then some false else none) = some b ↔ _
  simp only [List.contains_iff_mem]
  by_cases htrue : word ∈ wordsFor true
  · rw [if_pos htrue]
    cases b with
    | true => simpa using htrue
    | false => simpa using hapart word htrue
  · rw [if_neg htrue]
    cases b with
    | true => simpa using htrue
    | false => simp

/-- No word has a blank in it. -/
theorem notBlank_of_mem_wordsFor {word : String} {b : Bool} (h : word ∈ wordsFor b) :
    ∀ c ∈ word.toList, ¬Text.isBlank c = true := by
  have hall : ∀ b, (wordsFor b).all (·.toList.all (!Text.isBlank ·)) = true := by decide
  intro c hc
  simpa using List.all_eq_true.1 (List.all_eq_true.1 (hall b) word h) c hc

/-- The text spells the truth value: but for blanks around it, it is one of the words for it, in any
case. -/
def SpellsTruth (text : String) (b : Bool) : Prop :=
  ∃ word, Padded word text.toList ∧ String.ofList (word.map Char.toLower) ∈ wordsFor b

/-- **A text is read as a truth value** just if it spells it. -/
theorem truthOfWord?_eq_some_iff {text : String} {b : Bool} :
    truthOfWord? text = some b ↔ SpellsTruth text b := by
  have hread : truthOfWord? text = some b ↔
      String.ofList ((Text.trimChars text.toList).map Char.toLower) ∈ wordsFor b := by
    rw [truthOfWord?, Text.trim, String.toList_ofList]
    exact ofWord_eq_some_iff
  rw [hread]
  constructor
  · exact fun h => ⟨_, Text.padded_trimChars text.toList, h⟩
  · rintro ⟨word, hpadded, hword⟩
    rwa [(Text.trimChars_eq_iff fun c hc => ?_).2 hpadded]
    -- a blank would be in the word itself
    rw [Bool.eq_false_iff]
    intro hblank
    refine notBlank_of_mem_wordsFor hword c ?_ hblank
    rw [String.toList_ofList]
    exact List.mem_map.2 ⟨c, hc, Text.toLower_of_isBlank hblank⟩

end Settings
end SnippetConsole
