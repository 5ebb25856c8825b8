/-
# Reading bytes as text

Bytes that need not be UTF-8 are read as text: each part that is the form of a character is read as
that character, and each part that begins no form, or begins one and leaves it, as U+FFFD. Such a
part is cut as late as possible: it is all that still begins the form of some character, and one
byte if none does (`IllFormed`).

That says what the text is (`Decodes.unique`), and it is what the table of well-formed sequences
gives (`decodes_lossyChars`): the forms of characters obey the table (`row_of_encode`), what obeys
it is the form of a character (`exists_encode_of_row`), and what does so far can be completed
(`begins_iff`).
-/

import Mathlib.Data.List.Basic
import SnippetConsole.Proofs.RequestNames

namespace SnippetConsole
namespace Text

open String (utf8EncodeChar)

/-! ### What is read -/

/-- A part of bytes that is not the form of a character, with what follows it: the form of no
character starts there, and as much of the bytes as begins one, but at least one byte, is the
part. -/
structure IllFormed (part rest : Bytes) : Prop where
  ne_nil : part ≠ []
  no_char : ∀ c, ¬utf8EncodeChar c <+: part ++ rest
  begins : part.length = 1 ∨ ∃ c, part <+: utf8EncodeChar c
  longest : ∀ longer, longer <+: part ++ rest → part.length < longer.length →
    ∀ c, ¬longer <+: utf8EncodeChar c

/-- Bytes are read as characters: forms of characters as these, ill-formed parts as U+FFFD. -/
inductive Decodes : Bytes → List Char → Prop
  | nil : Decodes [] []
  | char {c rest cs} (h : Decodes rest cs) : Decodes (utf8EncodeChar c ++ rest) (c :: cs)
  | illFormed {part rest cs} (hpart : IllFormed part rest) (h : Decodes rest cs) :
    Decodes (part ++ rest) ('\uFFFD' :: cs)

/-! ### The table -/

/-- Bytes that continue a sequence: the first lies between `lo` and `hi`, the others between `80`
and `BF`. -/
def Follow (lo hi : UInt8) : Bytes → Prop
  | [] => True
  | b :: bs => (lo ≤ b ∧ b ≤ hi) ∧ Follow 0x80 0xBF bs

theorem Follow.of_append {lo hi : UInt8} {bs more : Bytes} (h : Follow lo hi (bs ++ more)) :
    Follow lo hi bs := by
  induction bs generalizing lo hi with
  | nil => trivial
  | cons b bs ih => exact ⟨h.1, ih h.2⟩

/-- As many bytes continue a sequence as follow one another. -/
theorem le_continuing_iff {n j : Nat} {lo hi : UInt8} {bs : Bytes} :
    j ≤ continuing n lo hi bs ↔ j ≤ n ∧ j ≤ bs.length ∧ Follow lo hi (bs.take j) := by
  induction n generalizing j lo hi bs with
  | zero =>
    rw [continuing]
    refine ⟨fun h => ?_, fun h => h.1⟩
    obtain rfl := Nat.le_zero.1 h
    exact ⟨Nat.le_refl 0, Nat.zero_le _, trivial⟩
  | succ n ih =>
    rcases j with _ | j
    · simp [Follow]
    · rcases bs with _ | ⟨b, bs⟩
      · simp [continuing]
      · rw [continuing]
        by_cases hb : lo ≤ b ∧ b ≤ hi
        · rw [if_pos hb, Nat.add_le_add_iff_right, ih]
          simp [Follow, hb]
        · rw [if_neg hb]
          simp [Follow, hb]

/-- The row of a lead byte, by its number. -/
inductive Row (n : Nat) : Option (Nat × UInt8 × UInt8) → Prop
  | one (h : n < 0x80) : Row n (some (0, 0, 0))
  | two (h : 0xC2 ≤ n ∧ n < 0xE0) : Row n (some (1, 0x80, 0xBF))
  | three (h : 0xE0 ≤ n ∧ n < 0xF0) :
    Row n (some (2, if n = 0xE0 then 0xA0 else 0x80, if n = 0xED then 0x9F else 0xBF))
  | four (h : 0xF0 ≤ n ∧ n < 0xF5) :
    Row n (some (3, if n = 0xF0 then 0x90 else 0x80, if n = 0xF4 then 0x8F else 0xBF))
  | none (h : 0x80 ≤ n ∧ n < 0xC2 ∨ 0xF5 ≤ n) : Row n none

/-- **Every byte has its row.** -/
theorem row (b : UInt8) : Row b.toNat (followers? b) := by
  simp only [followers?, UInt8.lt_iff_toNat_lt, ← UInt8.toNat_inj, UInt8.reduceToNat]
  generalize b.toNat = n
  by_cases h0 : n < 0x80
  · rw [if_pos h0]
    exact .one h0
  by_cases h1 : n < 0xC2
  · rw [if_neg h0, if_pos h1]
    exact .none (by omega)
  by_cases h2 : n < 0xE0
  · rw [if_neg h0, if_neg h1, if_pos h2]
    exact .two (by omega)
  rw [if_neg h0, if_neg h1, if_neg h2]
  by_cases h3 : n < 0xF0
  · have hrow : Row n _ := .three ⟨Nat.not_lt.1 h2, h3⟩
    by_cases hE0 : n = 0xE0
    · simpa [hE0] using hrow
    · by_cases hED : n = 0xED
      · simpa [hED] using hrow
      · simpa [hE0, hED, h3] using hrow
  by_cases h4 : n < 0xF5
  · have hrow : Row n _ := .four ⟨Nat.not_lt.1 h3, h4⟩
    have hno : n ≠ 0xE0 ∧ n ≠ 0xED := by omega
    rw [if_neg hno.1, if_neg hno.2, if_neg h3]
    by_cases hF0 : n = 0xF0
    · simpa [hF0] using hrow
    · by_cases hF4 : n = 0xF4
      · simpa [hF4] using hrow
      · have hlt : n < 0xF4 := by omega
        simpa [hF0, hF4, hlt] using hrow
  · have hno : n ≠ 0xE0 ∧ n ≠ 0xED ∧ n ≠ 0xF0 ∧ ¬n < 0xF4 ∧ n ≠ 0xF4 := by omega
    simpa [hno, h3] using Row.none (.inr (Nat.not_lt.1 h4))

/-! ### Forms of characters -/

/-- There is a character for each code that is not between the surrogates. -/
theorem exists_char {v : Nat} (h : v.isValidChar) : ∃ c : Char, c.val.toNat = v :=
  ⟨Char.ofNatAux v h, rfl⟩

/-- **The form of a character obeys the table,** and its payload is the character's code. -/
theorem row_of_encode {c : Char} {b : UInt8} {tail : Bytes} (h : utf8EncodeChar c = b :: tail) :
    (∃ lo hi, followers? b = some (tail.length, lo, hi) ∧ Follow lo hi tail) ∧
      payload (b.toNat % (if tail.length = 0 then 128 else 1 <<< (6 - tail.length))) tail
        = c.val.toNat := by
  have hvalid : c.val.toNat.isValidChar := c.valid
  have hrow := row b
  rw [utf8EncodeChar] at h
  generalize c.val.toNat = v at h hvalid
  generalize followers? b = answer at hrow
  by_cases h1 : v ≤ 127
  · rw [if_pos h1] at h
    cases h
    have hb : (UInt8.ofNat v).toNat = v := by simp; omega
    rw [hb] at hrow ⊢
    cases hrow with
    | one => exact ⟨⟨_, _, rfl, trivial⟩, by simp [payload]; omega⟩
    | _ => omega
  by_cases h2 : v ≤ 2047
  · rw [if_neg h1, if_pos h2] at h
    cases h
    have hb : (UInt8.ofNat (v / 64 % 32 + 192)).toNat = v / 64 + 192 := by simp; omega
    rw [hb] at hrow ⊢
    cases hrow with
    | two =>
      refine ⟨⟨_, _, rfl, ?_⟩, by simp [payload]; omega⟩
      simp [Follow, UInt8.le_iff_toNat_le]
      omega
    | _ => omega
  by_cases h3 : v ≤ 65535
  · rw [if_neg h1, if_neg h2, if_pos h3] at h
    cases h
    have hb : (UInt8.ofNat (v / 4096 % 16 + 224)).toNat = v / 4096 + 224 := by simp; omega
    rw [hb] at hrow ⊢
    cases hrow with
    | three =>
      refine ⟨⟨_, _, rfl, ?_⟩, by simp [payload]; omega⟩
      simp only [Follow, UInt8.le_iff_toNat_le]
      split <;> split <;> simp <;> omega
    | _ => omega
  · rw [if_neg h1, if_neg h2, if_neg h3] at h
    cases h
    have hb : (UInt8.ofNat (v / 262144 % 8 + 240)).toNat = v / 262144 + 240 := by simp; omega
    rw [hb] at hrow ⊢
    cases hrow with
    | four =>
      refine ⟨⟨_, _, rfl, ?_⟩, by simp [payload]; omega⟩
      simp only [Follow, UInt8.le_iff_toNat_le]
      split <;> split <;> simp <;> omega
    | _ => omega

/-- **What obeys the table is the form of a character.** -/
theorem exists_encode_of_row {b lo hi : UInt8} {tail : Bytes}
    (h : followers? b = some (tail.length, lo, hi)) (hfollow : Follow lo hi tail) :
    ∃ c, utf8EncodeChar c = b :: tail := by
  have hrow := row b
  rw [h] at hrow
  have hbyte {n : Nat} {x : UInt8} (hn : n = x.toNat) : UInt8.ofNat n = x := by simp [hn]
  generalize hlength : tail.length = k at hrow
  cases hrow with
  | one hb =>
    obtain rfl := List.length_eq_zero_iff.1 hlength
    obtain ⟨c, hc⟩ := exists_char (v := b.toNat) (.inl (by omega))
    refine ⟨c, ?_⟩
    rw [utf8EncodeChar, hc, if_pos (by omega), hbyte rfl]
  | two hb =>
    obtain ⟨x, rfl⟩ := List.length_eq_one_iff.1 hlength
    simp [Follow, UInt8.le_iff_toNat_le] at hfollow
    obtain ⟨c, hc⟩ := exists_char (v := b.toNat % 32 * 64 + x.toNat % 64) (.inl (by omega))
    refine ⟨c, ?_⟩
    rw [utf8EncodeChar, hc, if_neg (by omega), if_pos (by omega)]
    simp only [List.cons.injEq, and_true]
    exact ⟨hbyte (by omega), hbyte (by omega)⟩
  | three hb =>
    obtain ⟨x, y, rfl⟩ := List.length_eq_two.1 hlength
    have hnum : (0x80 ≤ x.toNat ∧ x.toNat ≤ 0xBF) ∧ (0x80 ≤ y.toNat ∧ y.toNat ≤ 0xBF) ∧
        (b.toNat = 0xE0 → 0xA0 ≤ x.toNat) ∧ (b.toNat = 0xED → x.toNat ≤ 0x9F) := by
      simp only [Follow, UInt8.le_iff_toNat_le] at hfollow
      split at hfollow <;> split at hfollow <;> simp at hfollow <;> omega
    obtain ⟨c, hc⟩ := exists_char (v := (b.toNat % 16 * 64 + x.toNat % 64) * 64 + y.toNat % 64)
      (by simp only [Nat.isValidChar]; omega)
    refine ⟨c, ?_⟩
    rw [utf8EncodeChar, hc, if_neg (by omega), if_neg (by omega), if_pos (by omega)]
    simp only [List.cons.injEq, and_true]
    exact ⟨hbyte (by omega), hbyte (by omega), hbyte (by omega)⟩
  | four hb =>
    obtain ⟨x, y, z, rfl⟩ := List.length_eq_three.1 hlength
    have hnum : (0x80 ≤ x.toNat ∧ x.toNat ≤ 0xBF) ∧ (0x80 ≤ y.toNat ∧ y.toNat ≤ 0xBF) ∧
        (0x80 ≤ z.toNat ∧ z.toNat ≤ 0xBF) ∧
        (b.toNat = 0xF0 → 0x90 ≤ x.toNat) ∧ (b.toNat = 0xF4 → x.toNat ≤ 0x8F) := by
      simp only [Follow, UInt8.le_iff_toNat_le] at hfollow
      split at hfollow <;> split at hfollow <;> simp at hfollow <;> omega
    obtain ⟨c, hc⟩ := exists_char
      (v := ((b.toNat % 8 * 64 + x.toNat % 64) * 64 + y.toNat % 64) * 64 + z.toNat % 64)
      (.inr (by omega))
    refine ⟨c, ?_⟩
    rw [utf8EncodeChar, hc, if_neg (by omega), if_neg (by omega), if_neg (by omega)]
    simp only [List.cons.injEq, and_true]
    exact ⟨hbyte (by omega), hbyte (by omega), hbyte (by omega), hbyte (by omega)⟩

/-- **The form of a character says which it is,** whatever follows. -/
theorem encode_append_inj {c c' : Char} {rest rest' : Bytes}
    (h : utf8EncodeChar c ++ rest = utf8EncodeChar c' ++ rest') : c = c' ∧ rest = rest' := by
  obtain ⟨b, tail, hc⟩ := List.exists_cons_of_ne_nil (String.utf8EncodeChar_ne_nil (c := c))
  obtain ⟨b', tail', hc'⟩ := List.exists_cons_of_ne_nil (String.utf8EncodeChar_ne_nil (c := c'))
  rw [hc, hc', List.cons_append, List.cons_append, List.cons.injEq] at h
  obtain ⟨rfl, h⟩ := h
  obtain ⟨⟨lo, hi, hrow, -⟩, hpayload⟩ := row_of_encode hc
  obtain ⟨⟨lo', hi', hrow', -⟩, hpayload'⟩ := row_of_encode hc'
  have hlength : tail.length = tail'.length := by
    rw [hrow] at hrow'
    exact congrArg Prod.fst (Option.some.inj hrow')
  obtain ⟨rfl, rfl⟩ := List.append_inj h hlength
  have hval : c.val.toNat = c'.val.toNat := hpayload.symm.trans hpayload'
  exact ⟨Char.ext (UInt32.toNat_inj.1 hval), rfl⟩

/-! ### Beginnings of forms -/

/-- What follows a lead byte so far can be completed. -/
theorem exists_follow {n : Nat} {lo hi : UInt8} {part : Bytes} (hlength : part.length ≤ n)
    (hrange : 0 < n → lo ≤ hi) (h : Follow lo hi part) :
    ∃ more, (part ++ more).length = n ∧ Follow lo hi (part ++ more) := by
  induction part generalizing n lo hi with
  | nil =>
    have hrest : ∀ k, Follow 0x80 0xBF (List.replicate k 0x80) := by
      intro k
      induction k with
      | zero => trivial
      | succ k ih => exact ⟨by decide, ih⟩
    rcases n with _ | n
    · exact ⟨[], rfl, trivial⟩
    · exact ⟨lo :: List.replicate n 0x80, by simp, ⟨UInt8.le_refl lo, hrange n.succ_pos⟩, hrest n⟩
  | cons b part ih =>
    rcases n with _ | n
    · simp at hlength
    · obtain ⟨more, hmore, hfollow⟩ := ih (Nat.le_of_succ_le_succ hlength) (fun _ => by decide) h.2
      exact ⟨more, by simp [hmore], h.1, hfollow⟩

/-- **What begins the form of a character** is a lead byte with some of what may follow it. -/
theorem begins_iff {b : UInt8} {part : Bytes} :
    (∃ c, b :: part <+: utf8EncodeChar c) ↔
      ∃ n lo hi, followers? b = some (n, lo, hi) ∧ part.length ≤ n ∧ Follow lo hi part := by
  constructor
  · rintro ⟨c, more, hmore⟩
    obtain ⟨⟨lo, hi, hrow, hfollow⟩, -⟩ := row_of_encode hmore.symm
    exact ⟨_, lo, hi, hrow, by simp, hfollow.of_append⟩
  · rintro ⟨n, lo, hi, hrow, hlength, hfollow⟩
    have hrange : 0 < n → lo ≤ hi := by
      have hb := row b
      rw [hrow] at hb
      cases hb with
      | one => exact fun h => absurd h (by decide)
      | two => exact fun _ => by decide
      | three =>
        by_cases hE0 : b.toNat = 0xE0
        · simp [hE0]
        · rw [if_neg hE0]
          split <;> decide
      | four =>
        by_cases hF0 : b.toNat = 0xF0
        · simp [hF0]
        · rw [if_neg hF0]
          split <;> decide
    obtain ⟨more, hmore, hfollow'⟩ := exists_follow hlength hrange hfollow
    obtain ⟨c, hc⟩ := exists_encode_of_row (hmore ▸ hrow) hfollow'
    exact ⟨c, more, hc.symm⟩

/-- A form begins with a lead byte. -/
theorem begins_of_encode {c : Char} {b : UInt8} {rest : Bytes}
    (h : utf8EncodeChar c <+: b :: rest) :
    ∃ tail, utf8EncodeChar c = b :: tail ∧ tail <+: rest := by
  obtain ⟨b', tail, hc⟩ := List.exists_cons_of_ne_nil (String.utf8EncodeChar_ne_nil (c := c))
  rw [hc, List.cons_prefix_cons] at h
  exact ⟨tail, h.1 ▸ hc, h.2⟩

/-! ### Characters one after the other -/

/-- A byte that leads no sequence is ill-formed by itself. -/
theorem illFormed_of_no_row {b : UInt8} (h : followers? b = none) (rest : Bytes) :
    IllFormed [b] rest := by
  have hnone (part : Bytes) (c : Char) : ¬b :: part <+: utf8EncodeChar c := fun hpart => by
    obtain ⟨n, lo, hi, hrow, -⟩ := begins_iff.1 ⟨c, hpart⟩
    rw [h] at hrow
    cases hrow
  refine ⟨List.cons_ne_nil b [], fun c hc => ?_, .inl rfl, fun longer hlonger hlt c hc => ?_⟩
  · obtain ⟨tail, htail, -⟩ := begins_of_encode hc
    exact hnone tail c (htail ▸ List.prefix_rfl)
  · rcases longer with _ | ⟨b', part⟩
    · exact absurd hlt (Nat.not_lt_zero _)
    · obtain ⟨rfl, -⟩ := List.cons_prefix_cons.1 hlonger
      exact hnone part c hc

/-- So is a lead byte with what follows it, if that is left too early. -/
theorem illFormed_of_row {b lo hi : UInt8} {n : Nat} (h : followers? b = some (n, lo, hi))
    {rest : Bytes} (hlt : continuing n lo hi rest < n) :
    IllFormed (b :: rest.take (continuing n lo hi rest))
      (rest.drop (continuing n lo hi rest)) := by
  obtain ⟨hle, hlength, hfollow⟩ := le_continuing_iff.1 (Nat.le_refl (continuing n lo hi rest))
  have hlong {part : Bytes} (hpart : part <+: rest) {c : Char}
      (hc : b :: part <+: utf8EncodeChar c) : part.length ≤ continuing n lo hi rest := by
    obtain ⟨n', lo', hi', hrow, hle', hfollow'⟩ := begins_iff.1 ⟨c, hc⟩
    rw [h] at hrow
    cases hrow
    rw [List.prefix_iff_eq_take.1 hpart] at hfollow'
    exact le_continuing_iff.2 ⟨hle', hpart.length_le, hfollow'⟩
  have hwhole : b :: rest.take (continuing n lo hi rest) ++ rest.drop (continuing n lo hi rest)
      = b :: rest := by rw [List.cons_append, List.take_append_drop]
  refine ⟨List.cons_ne_nil _ _, fun c hc => ?_, .inr ?_, fun longer hlonger hlt' c hc => ?_⟩
  · rw [hwhole] at hc
    obtain ⟨tail, htail, hprefix⟩ := begins_of_encode hc
    obtain ⟨⟨lo', hi', hrow, -⟩, -⟩ := row_of_encode htail
    rw [h] at hrow
    cases hrow
    exact absurd (hlong hprefix (c := c) (htail ▸ List.prefix_rfl)) (Nat.not_le.2 hlt)
  · exact begins_iff.2 ⟨n, lo, hi, h, Nat.le_trans (List.length_take_le _ _) hle, hfollow⟩
  · rw [hwhole] at hlonger
    rcases longer with _ | ⟨b', part⟩
    · exact absurd hlt' (Nat.not_lt_zero _)
    · obtain ⟨rfl, hpart⟩ := List.cons_prefix_cons.1 hlonger
      have hle' := hlong hpart hc
      rw [List.length_cons, List.length_cons, List.length_take_of_le hlength] at hlt'
      omega

/-- **The first character:** the bytes start with its form, or with an ill-formed part. -/
theorem firstChar_cases (b : UInt8) (rest : Bytes) :
    (∃ c n, firstChar b rest = (c, n) ∧ utf8EncodeChar c = b :: rest.take n) ∨
      ∃ k, firstChar b rest = ('\uFFFD', k) ∧ IllFormed (b :: rest.take k) (rest.drop k) := by
  rcases hrow : followers? b with _ | ⟨n, lo, hi⟩
  · refine .inr ⟨0, by rw [firstChar, hrow], ?_⟩
    exact illFormed_of_no_row hrow rest
  · by_cases hall : continuing n lo hi rest = n
    · obtain ⟨-, hlength, hfollow⟩ := le_continuing_iff.1 (Nat.le_of_eq hall.symm)
      have htake : (rest.take n).length = n := List.length_take_of_le hlength
      obtain ⟨c, hc⟩ := exists_encode_of_row (htake.symm ▸ hrow) hfollow
      have hpayload := (row_of_encode hc).2
      rw [htake] at hpayload
      refine .inl ⟨c, n, ?_, hc⟩
      simp only [firstChar, hrow, if_pos hall, hpayload]
      rw [show c.val.toNat = c.toNat from rfl, Char.ofNat_toNat]
    · have hfirst : firstChar b rest = ('\uFFFD', continuing n lo hi rest) := by
        simp only [firstChar, hrow, if_neg hall]
      refine .inr ⟨_, hfirst, ?_⟩
      have hle := (le_continuing_iff.1 (Nat.le_refl (continuing n lo hi rest))).1
      exact illFormed_of_row hrow (Nat.lt_of_le_of_ne hle hall)

/-- **The lenient reading reads bytes as characters.** -/
theorem decodes_lossyChars (bytes : Bytes) : Decodes bytes (lossyChars bytes) := by
  fun_induction lossyChars bytes with
  | case1 => exact .nil
  | case2 b rest c used hfirst ih =>
    rcases firstChar_cases b rest with ⟨c', n, heq, hc⟩ | ⟨k, heq, hpart⟩
    · rw [heq] at hfirst
      cases hfirst
      have hwhole : b :: rest = utf8EncodeChar c ++ rest.drop used := by
        rw [hc, List.cons_append, List.take_append_drop]
      rw [hwhole]
      exact .char ih
    · rw [heq] at hfirst
      cases hfirst
      have hwhole : b :: rest = b :: rest.take used ++ rest.drop used := by
        rw [List.cons_append, List.take_append_drop]
      rw [hwhole]
      exact .illFormed hpart ih

/-! ### One reading -/

/-- No ill-formed part is shorter than another one of the same bytes. -/
theorem IllFormed.length_le {part rest part' rest' : Bytes} (h : IllFormed part rest)
    (h' : IllFormed part' rest') (heq : part ++ rest = part' ++ rest') :
    part'.length ≤ part.length := by
  refine Nat.not_lt.1 fun hlt => ?_
  rcases h'.begins with hone | ⟨c, hc⟩
  · exact h.ne_nil (List.length_eq_zero_iff.1 (by omega))
  · exact h.longest part' (heq ▸ List.prefix_append part' rest') hlt c hc

/-- **There is one reading.** -/
theorem Decodes.unique {bytes : Bytes} {cs cs' : List Char} (h : Decodes bytes cs)
    (h' : Decodes bytes cs') : cs = cs' := by
  induction h generalizing cs' with
  | nil =>
    generalize hbytes : ([] : Bytes) = bytes at h'
    cases h' with
    | nil => rfl
    | char _ => exact absurd (List.append_eq_nil_iff.1 hbytes.symm).1 String.utf8EncodeChar_ne_nil
    | illFormed hpart _ => exact absurd (List.append_eq_nil_iff.1 hbytes.symm).1 hpart.ne_nil
  | @char c rest cs _ ih =>
    generalize hbytes : utf8EncodeChar c ++ rest = bytes at h'
    cases h' with
    | nil => exact absurd (List.append_eq_nil_iff.1 hbytes).1 String.utf8EncodeChar_ne_nil
    | char h' =>
      obtain ⟨rfl, rfl⟩ := encode_append_inj hbytes
      rw [ih h']
    | illFormed hpart _ => exact absurd (hbytes ▸ List.prefix_append _ _) (hpart.no_char c)
  | @illFormed part rest cs hpart _ ih =>
    generalize hbytes : part ++ rest = bytes at h'
    cases h' with
    | nil => exact absurd (List.append_eq_nil_iff.1 hbytes).1 hpart.ne_nil
    | @char c _ _ _ => exact absurd (hbytes ▸ List.prefix_append _ _) (hpart.no_char c)
    | illFormed hpart' h' =>
      have hlength := Nat.le_antisymm (hpart'.length_le hpart hbytes.symm)
        (hpart.length_le hpart' hbytes)
      obtain ⟨rfl, rfl⟩ := List.append_inj hbytes hlength
      rw [ih h']

/-- **The text of bytes is what they are read as.** -/
theorem lossy_eq_iff {bytes : Bytes} {s : String} : lossy bytes = s ↔ Decodes bytes s.toList := by
  constructor
  · rintro rfl
    rw [lossy, String.toList_ofList]
    exact decodes_lossyChars bytes
  · intro h
    rw [lossy, (decodes_lossyChars bytes).unique h, String.ofList_toList]

/-- The form of a text is read as that text. -/
theorem lossy_encode (s : String) : lossy (encode s) = s := by
  have hdecodes : ∀ cs : List Char, Decodes (cs.flatMap utf8EncodeChar) cs := by
    intro cs
    induction cs with
    | nil => exact .nil
    | cons c cs ih => exact .char ih
  refine lossy_eq_iff.2 ?_
  have hencode := encode_ofList s.toList
  rw [String.ofList_toList] at hencode
  rw [hencode]
  exact hdecodes s.toList

/-- Two bytes of three are one U+FFFD, bytes that lead nothing are one each. -/
example : lossyChars [0x41, 0xE2, 0x82, 0x42, 0xC0, 0xFF]
    = ['A', '\uFFFD', 'B', '\uFFFD', '\uFFFD'] := by cbv

end Text
end SnippetConsole
