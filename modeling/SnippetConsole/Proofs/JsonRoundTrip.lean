/-
# Written JSON reads back

The pretty form of a value, read again, is the value with its members in the order of their keys
(`document_pretty`), if its numbers are integers that a reader keeps as such and its brackets are not
nested too deep (`Value.Within`).

The pieces are read each with anything behind them: an escaped character
(`stringBody_escapedChar_append`), the digits of a number, behind which no number goes on
(`number_toDigits_append`), then lists and objects with any reader of what is inside
(`items_append`, `members_append`). The induction is on the depth.
-/

import SnippetConsole.Proofs.JsonMembers
import Mathlib.Algebra.Order.BigOperators.Group.List

namespace SnippetConsole
namespace Json

open Decimal (digitValue digits isDigit valueOf)

/-! ### Numbers -/

/-- The number at the end of which `rest` stands does not go on there. -/
def EndsNumber (rest : List Char) : Prop :=
  ∀ c rest', rest = c :: rest' → isDigit c = false ∧ c ≠ '.' ∧ c ≠ 'e' ∧ c ≠ 'E'

theorem endsNumber_nil : EndsNumber [] := nofun

theorem endsNumber_cons {c : Char} (hc : isDigit c = false ∧ c ≠ '.' ∧ c ≠ 'e' ∧ c ≠ 'E')
    (rest : List Char) : EndsNumber (c :: rest) := by
  intro c' rest' heq
  obtain ⟨rfl, rfl⟩ := List.cons.inj heq
  exact hc

theorem endsNumber_newLine_append (level : Nat) (rest : List Char) :
    EndsNumber (newLine level ++ rest) :=
  endsNumber_cons (by decide) _

/-- Digits are read up to where no digit stands. -/
theorem digits_append {ds rest : List Char} (hds : ∀ d ∈ ds, isDigit d = true)
    (hrest : EndsNumber rest) : digits (ds ++ rest) = (ds, rest) := by
  have hstop : rest.takeWhile isDigit = [] ∧ rest.dropWhile isDigit = rest := by
    cases rest with
    | nil => exact ⟨rfl, rfl⟩
    | cons c rest =>
      obtain ⟨hc, -⟩ := hrest c rest rfl
      simp [hc]
  rw [digits, List.takeWhile_append_of_pos hds, List.dropWhile_append_of_pos hds, hstop.1, hstop.2,
    List.append_nil]

theorem isDigit_of_mem_toDigits {n : Nat} {d : Char} (h : d ∈ Nat.toDigits 10 n) :
    isDigit d = true :=
  Nat.isDigit_of_mem_toDigits (by decide) (by decide) h

/-- The digits of a number spell it. -/
theorem valueOf_toDigits (n : Nat) : valueOf (Nat.toDigits 10 n) = n := by
  have hfold : (fun n d => n * 10 + digitValue d)
      = fun n (d : Char) => 10 * n + (d.toNat - '0'.toNat) := by
    funext n d
    rw [Nat.mul_comm, digitValue]
    rfl
  rw [valueOf, hfold, ← Nat.ofDigitChars_eq_foldl]
  exact Nat.ofDigitChars_ten_toDigits

/-- A number that is not zero starts with no zero. -/
theorem exists_toDigits_eq_cons {n : Nat} (hn : 0 < n) :
    ∃ d ds, Nat.toDigits 10 n = d :: ds ∧ d ≠ '0' := by
  induction n using Nat.strongRecOn with
  | ind n ih =>
    by_cases hlt : n < 10
    · refine ⟨n.digitChar, [], Nat.toDigits_of_lt_base hlt, ?_⟩
      simp [Nat.ne_of_gt hn]
    · have hle : 10 ≤ n := Nat.le_of_not_lt hlt
      obtain ⟨d, ds, hds, hd⟩ := ih (n / 10) (by omega) (by omega)
      refine ⟨d, ds ++ [(n % 10).digitChar], ?_, hd⟩
      rw [Nat.toDigits_of_base_le (by decide) hle, hds]
      rfl

/-- Nothing is clipped off a number that is small enough. -/
theorem clip_eq {limit : Nat} {ds : List Char} {acc : Nat}
    (h : ds.foldl (fun n d => n * 10 + digitValue d) acc ≤ limit) :
    clip limit acc ds = (ds.foldl (fun n d => n * 10 + digitValue d) acc, 0) := by
  have hgrows : ∀ (ds : List Char) (acc : Nat),
      acc ≤ ds.foldl (fun n d => n * 10 + digitValue d) acc := by
    intro ds
    induction ds with
    | nil => exact fun acc => le_rfl
    | cons d ds ih =>
      intro acc
      have hstep : acc ≤ acc * 10 + digitValue d := by omega
      exact hstep.trans (ih _)
  induction ds generalizing acc with
  | nil => rfl
  | cons d ds ih =>
    have hfits : acc * 10 + digitValue d ≤ limit := (hgrows ds _).trans h
    rw [clip]
    simp only [hfits, if_true]
    exact ih h

/-- **The digits of a number read back.** -/
theorem number_toDigits_append {n : Nat} (hn : n ≤ maxWord) (negative : Bool) {rest : List Char}
    (hrest : EndsNumber rest) :
    number negative (Nat.toDigits 10 n ++ rest) = .ok (wholeNumber negative n, rest) := by
  have hclip : clip maxWord 0 (Nat.toDigits 10 n) = (n, 0) := by
    have hvalue := valueOf_toDigits n
    rw [valueOf] at hvalue
    rw [clip_eq (hvalue.trans_le hn), hvalue]
  have hdigits : digits (Nat.toDigits 10 n ++ rest) = (Nat.toDigits 10 n, rest) :=
    digits_append (fun d hd => isDigit_of_mem_toDigits hd) hrest
  have hzero : ∀ c ds, Nat.toDigits 10 n ≠ '0' :: c :: ds := by
    intro c ds heq
    rcases Nat.eq_zero_or_pos n with rfl | hpos
    · rw [Nat.toDigits_zero] at heq
      simp at heq
    · obtain ⟨d, ds', hds, hd⟩ := exists_toDigits_eq_cons hpos
      rw [hds] at heq
      exact hd (List.cons.inj heq).1
  unfold number
  rw [hdigits]
  dsimp only
  split
  case h_1 heq => exact absurd heq Nat.toDigits_ne_nil
  case h_2 heq _ => exact absurd heq Nat.toDigits_ne_nil
  case h_3 heq => exact absurd heq (hzero _ _)
  case h_4 =>
    rw [hclip]
    dsimp only
    split
    case h_1 => exact absurd rfl (hrest _ _ rfl).2.1
    case h_2 =>
      rw [if_pos rfl]
      split
      case h_1 => exact absurd rfl (hrest _ _ rfl).2.2.1
      case h_2 => exact absurd rfl (hrest _ _ rfl).2.2.2
      case h_3 => rfl

/-! ### Strings -/

/-- What is read of a string in front of which the character `c` stands. -/
def withChar (c : Char) (read : Except Fault (List Char × List Char)) :
    Except Fault (List Char × List Char) := do
  let (text, rest) ← read
  .ok (c :: text, rest)

theorem stringBody_plain {c : Char} (hquote : c ≠ '"') (hbackslash : c ≠ '\\')
    (hcontrol : ¬c.toNat < 0x20) (cs : List Char) :
    stringBody (c :: cs) = withChar c (stringBody cs) := by
  rw [stringBody.eq_def]
  split
  case h_1 heq => cases heq
  case h_2 heq => exact absurd (List.cons.inj heq).1 hquote
  case h_3 heq => exact absurd (List.cons.inj heq).1 hbackslash
  case h_4 heq => exact absurd (List.cons.inj heq).1 hbackslash
  case h_5 heq => exact absurd (List.cons.inj heq).1 hbackslash
  case h_6 heq =>
    obtain ⟨rfl, rfl⟩ := List.cons.inj heq
    rw [if_neg hcontrol]
    rfl

theorem stringBody_unit {a b c d : Char} {n : Nat} (hunit : hexUnit? a b c d = some n)
    (htrailing : isTrailing n = false) (hleading : isLeading n = false) (cs : List Char) :
    stringBody ('\\' :: 'u' :: a :: b :: c :: d :: cs)
      = withChar (Char.ofNat n) (stringBody cs) := by
  simp only [stringBody, hunit, htrailing, hleading, Bool.false_eq_true, if_false]
  rfl

/-- Four digits of a control character are its unit. -/
theorem exists_hexUnit?_hexPadded {n : Nat} (hn : n < 0x20) :
    ∃ a b c d, Text.hexPadded 4 n = [a, b, c, d] ∧ hexUnit? a b c d = some n := by
  have hall : ∀ m : Fin 0x20, ∃ a b c d, Text.hexPadded 4 m.val = [a, b, c, d] ∧
      hexUnit? a b c d = some m.val := by
    intro m
    refine ⟨_, _, _, _, rfl, ?_⟩
    revert m
    decide
  exact hall ⟨n, hn⟩

/-- **A character reads back** from how it is written in a string. -/
theorem stringBody_escapedChar_append (c : Char) (cs : List Char) :
    stringBody (escapedChar c ++ cs) = withChar c (stringBody cs) := by
  unfold escapedChar
  split
  case isTrue h => subst h; rfl
  split
  case isTrue h => subst h; rfl
  split
  case isTrue h => subst h; rfl
  split
  case isTrue h => subst h; rfl
  split
  case isTrue h => subst h; rfl
  split
  case isTrue h => subst h; rfl
  split
  case isTrue h => subst h; rfl
  split
  case isTrue hcontrol =>
    obtain ⟨a, b, c', d, hpadded, hunit⟩ := exists_hexUnit?_hexPadded hcontrol
    have htrailing : isTrailing c.toNat = false := by
      simp [isTrailing]
      omega
    have hleading : isLeading c.toNat = false := by
      simp [isLeading]
      omega
    have hread := stringBody_unit hunit htrailing hleading cs
    rw [Char.ofNat_toNat] at hread
    rw [hpadded]
    exact hread
  case isFalse hquote hbackslash _ _ _ _ _ hcontrol =>
    exact stringBody_plain hquote hbackslash hcontrol cs

/-- **A string reads back.** -/
theorem string_escaped_append (s : String) (rest : List Char) :
    string (s.toList.flatMap escapedChar ++ '"' :: rest) = .ok (s, rest) := by
  have hbody : ∀ cs : List Char,
      stringBody (cs.flatMap escapedChar ++ '"' :: rest) = .ok (cs, rest) := by
    intro cs
    induction cs with
    | nil => rfl
    | cons c cs ih =>
      rw [List.flatMap_cons, List.append_assoc, stringBody_escapedChar_append, ih]
      rfl
  unfold string
  rw [hbody]
  show Except.ok (String.ofList s.toList, rest) = _
  rw [String.ofList_toList]

/-! ### Blanks -/

theorem skipBlanks_append {blanks : List Char} (h : ∀ c ∈ blanks, isBlank c = true)
    (cs : List Char) : skipBlanks (blanks ++ cs) = skipBlanks cs :=
  List.dropWhile_append_of_pos h

theorem isBlank_of_mem_newLine {level : Nat} {c : Char} (h : c ∈ newLine level) :
    isBlank c = true := by
  rcases List.mem_cons.1 h with rfl | h
  · rfl
  · rw [List.eq_of_mem_replicate h]
    rfl

theorem skipBlanks_newLine_append (level : Nat) (cs : List Char) :
    skipBlanks (newLine level ++ cs) = skipBlanks cs :=
  skipBlanks_append (fun _ hc => isBlank_of_mem_newLine hc) cs

theorem skipBlanks_cons {c : Char} (hc : isBlank c = false) (cs : List Char) :
    skipBlanks (c :: cs) = c :: cs := by
  rw [skipBlanks, List.dropWhile_cons, hc]
  rfl

/-- The text starts as a value does: with no blank and no closing bracket. -/
def StartsValue (cs : List Char) : Prop :=
  ∃ c cs', cs = c :: cs' ∧ isBlank c = false ∧ c ≠ ']' ∧ c ≠ '\x7d'

theorem StartsValue.append {cs : List Char} (h : StartsValue cs) (rest : List Char) :
    StartsValue (cs ++ rest) := by
  obtain ⟨c, cs, rfl, hc⟩ := h
  exact ⟨c, cs ++ rest, rfl, hc⟩

/-! ### Lines between brackets -/

/-- Pieces behind the first one, each on a line of its own. -/
def laterLines (level : Nat) (pieces : List (List Char)) : List Char :=
  pieces.flatMap fun piece => ',' :: (newLine level ++ piece)

theorem laterLines_cons_append (level : Nat) (piece : List Char) (pieces : List (List Char))
    (rest : List Char) :
    laterLines level (piece :: pieces) ++ rest =
      ',' :: (newLine level ++ (piece ++ (laterLines level pieces ++ rest))) := by
  simp [laterLines]

theorem endsNumber_laterLines_append (level : Nat) (pieces : List (List Char)) {rest : List Char}
    (hrest : EndsNumber rest) : EndsNumber (laterLines level pieces ++ rest) := by
  cases pieces with
  | nil => exact hrest
  | cons piece pieces => exact endsNumber_cons (by decide) _

theorem length_le_length_laterLines (level : Nat) (pieces : List (List Char)) :
    pieces.length ≤ (laterLines level pieces).length := by
  induction pieces with
  | nil => exact Nat.zero_le _
  | cons piece pieces ih =>
    have hcons := laterLines_cons_append level piece pieces []
    rw [List.append_nil, List.append_nil] at hcons
    simp only [hcons, List.length_cons, List.length_append]
    omega

/-- Lines between brackets: the first piece, then the others. -/
theorem bracketedLines_cons_append (opening closing : Char) (level : Nat) (piece : List Char)
    (pieces : List (List Char)) (rest : List Char) :
    bracketedLines opening closing level (piece :: pieces) ++ rest =
      opening :: (newLine (level + 1) ++ (piece ++
        (laterLines (level + 1) pieces ++ (newLine level ++ closing :: rest)))) := by
  have hlines : ∀ (piece : List Char) (pieces : List (List Char)),
      List.intercalate [','] ((piece :: pieces).map (newLine (level + 1) ++ ·)) =
        newLine (level + 1) ++ (piece ++ laterLines (level + 1) pieces) := by
    intro piece pieces
    induction pieces generalizing piece with
    | nil => simp [laterLines, List.intercalate]
    | cons piece' pieces ih =>
      have hcons := laterLines_cons_append (level + 1) piece' pieces []
      rw [List.append_nil, List.append_nil] at hcons
      rw [hcons, ← ih]
      simp [List.intercalate_cons_cons]
  rw [bracketedLines, if_neg (by simp), hlines]
  simp

/-! ### Lists and objects -/

section Loops

variable {α β : Type} {item : Reader β} {write : α → List Char} {read : α → β}

/-- The reader makes `read a` of what is written of `a`, whatever stands behind it. -/
structure ReadsBack (item : Reader β) (write : α → List Char) (read : α → β) (a : α) : Prop where
  starts : StartsValue (write a)
  reads : ∀ (blanks : List Char) {rest : List Char}, (∀ c ∈ blanks, isBlank c = true) →
    EndsNumber rest → item (blanks ++ (write a ++ rest)) = .ok (read a, rest)

theorem ReadsBack.reads_append {a : α} (h : ReadsBack item write read a) {rest : List Char}
    (hrest : EndsNumber rest) : item (write a ++ rest) = .ok (read a, rest) :=
  h.reads [] (fun _ hc => absurd hc List.not_mem_nil) hrest

theorem nextItem_first {cs : List Char} (hcs : StartsValue cs) (level : Nat) :
    nextItem true (newLine level ++ cs) = .ok (true, cs) := by
  obtain ⟨c, cs, rfl, hblank, hlist, -⟩ := hcs
  unfold nextItem
  rw [skipBlanks_newLine_append, skipBlanks_cons hblank]
  split
  case h_1 heq => cases heq
  case h_2 heq => exact absurd (List.cons.inj heq).1 hlist
  case h_3 heq =>
    rw [heq]
    rfl

theorem nextItem_later {cs : List Char} (hcs : StartsValue cs) (level : Nat) :
    nextItem false (',' :: (newLine level ++ cs)) = .ok (true, cs) := by
  obtain ⟨c, cs, rfl, hblank, hlist, -⟩ := hcs
  have hcomma : skipBlanks (',' :: (newLine level ++ c :: cs))
      = ',' :: (newLine level ++ c :: cs) := skipBlanks_cons rfl _
  have hitem : skipBlanks (newLine level ++ c :: cs) = c :: cs := by
    rw [skipBlanks_newLine_append, skipBlanks_cons hblank]
  unfold nextItem
  rw [hcomma]
  split
  case h_1 heq => cases heq
  case h_2 heq => exact absurd (List.cons.inj heq).1 (by decide)
  case h_3 heq =>
    obtain ⟨rfl, rfl⟩ := List.cons.inj heq
    rw [if_neg Bool.false_ne_true, if_pos rfl, hitem]
    split
    case h_1 heq => cases heq
    case h_2 heq => exact absurd (List.cons.inj heq).1 hlist
    case h_3 => rfl

theorem nextItem_end (first : Bool) (level : Nat) (rest : List Char) :
    nextItem first (newLine level ++ ']' :: rest) = .ok (false, ']' :: rest) := by
  unfold nextItem
  rw [skipBlanks_newLine_append]
  rfl

theorem items_of_end {fuel : Nat} {first : Bool} {cs rest : List Char}
    (h : nextItem first cs = .ok (false, ']' :: rest)) :
    items item (fuel + 1) first cs = .ok ([], rest) := by
  rw [items]
  show nextItem first cs >>= _ = _
  rw [h]
  rfl

theorem items_of_item {fuel : Nat} {first : Bool} {cs cs' cs'' rest : List Char} {b : β}
    {bs : List β} (hnext : nextItem first cs = .ok (true, cs')) (hitem : item cs' = .ok (b, cs''))
    (hothers : items item fuel false cs'' = .ok (bs, rest)) :
    items item (fuel + 1) first cs = .ok (b :: bs, rest) := by
  rw [items]
  show nextItem first cs >>= _ = _
  rw [hnext]
  show item cs' >>= _ = _
  rw [hitem]
  show items item fuel false cs'' >>= _ = _
  rw [hothers]
  rfl

/-- Items behind the first one read back. -/
theorem items_later {as : List α} (has : ∀ a ∈ as, ReadsBack item write read a) (level : Nat)
    {fuel : Nat} (hfuel : as.length < fuel) (rest : List Char) :
    items item fuel false
        (laterLines (level + 1) (as.map write) ++ (newLine level ++ ']' :: rest))
      = .ok (as.map read, rest) := by
  induction as generalizing fuel with
  | nil =>
    obtain ⟨fuel, rfl⟩ := Nat.exists_eq_add_of_lt hfuel
    exact items_of_end (nextItem_end false level rest)
  | cons a as ih =>
    obtain ⟨ha, hothers⟩ := List.forall_mem_cons.1 has
    cases fuel with
    | zero => exact absurd hfuel (Nat.not_lt_zero _)
    | succ fuel =>
      have hends := endsNumber_laterLines_append (level + 1) (as.map write)
        (endsNumber_newLine_append level (']' :: rest))
      have hread := ha.reads_append hends
      rw [List.map_cons, laterLines_cons_append]
      exact items_of_item (nextItem_later (ha.starts.append _) (level + 1)) hread
        (ih hothers (Nat.lt_of_succ_lt_succ hfuel))

/-- **A list reads back,** if its items do. -/
theorem exists_items_append {as : List α} (has : ∀ a ∈ as, ReadsBack item write read a)
    (level : Nat) (rest : List Char) :
    ∃ cs, bracketedLines '[' ']' level (as.map write) ++ rest = '[' :: cs ∧
      ∀ fuel, cs.length < fuel → items item fuel true cs = .ok (as.map read, rest) := by
  cases as with
  | nil =>
    refine ⟨']' :: rest, rfl, fun fuel hfuel => ?_⟩
    obtain ⟨fuel, rfl⟩ := Nat.exists_eq_add_of_lt hfuel
    exact items_of_end rfl
  | cons a as =>
    obtain ⟨ha, hothers⟩ := List.forall_mem_cons.1 has
    refine ⟨_, bracketedLines_cons_append _ _ _ _ _ _, fun fuel hfuel => ?_⟩
    cases fuel with
    | zero => exact absurd hfuel (Nat.not_lt_zero _)
    | succ fuel =>
      have hends := endsNumber_laterLines_append (level + 1) (as.map write)
        (endsNumber_newLine_append level (']' :: rest))
      have hread := ha.reads_append hends
      have hlength := length_le_length_laterLines (level + 1) (as.map write)
      have hlater : as.length < fuel := by
        simp only [List.length_append, List.length_map, List.length_cons] at hfuel hlength
        omega
      exact items_of_item (nextItem_first (ha.starts.append _) (level + 1)) hread
        (items_later hothers level hlater rest)

/-- A written member: its key and what is written of it. -/
def memberText (write : α → List Char) (m : String × α) : List Char :=
  quotedString m.1 ++ [':', ' '] ++ write m.2

/-- A member behind the quote of its key. -/
def memberRest (write : α → List Char) (m : String × α) : List Char :=
  m.1.toList.flatMap escapedChar ++ '"' :: ':' :: ' ' :: write m.2

theorem memberText_append (write : α → List Char) (m : String × α) (rest : List Char) :
    memberText write m ++ rest = '"' :: (memberRest write m ++ rest) := by
  simp [memberText, memberRest, quotedString]

theorem nextKey_first (level : Nat) (cs : List Char) :
    nextKey true (newLine level ++ '"' :: cs) = .ok (true, cs) := by
  unfold nextKey
  rw [skipBlanks_newLine_append]
  rfl

theorem nextKey_later (level : Nat) (cs : List Char) :
    nextKey false (',' :: (newLine level ++ '"' :: cs)) = .ok (true, cs) := by
  have hcomma : skipBlanks (',' :: (newLine level ++ '"' :: cs))
      = ',' :: (newLine level ++ '"' :: cs) := skipBlanks_cons rfl _
  have hkey : skipBlanks (newLine level ++ '"' :: cs) = '"' :: cs := by
    rw [skipBlanks_newLine_append, skipBlanks_cons rfl]
  unfold nextKey
  rw [hcomma]
  split
  case h_1 heq => cases heq
  case h_2 heq => exact absurd (List.cons.inj heq).1 (by decide)
  case h_3 heq =>
    obtain ⟨rfl, rfl⟩ := List.cons.inj heq
    rw [if_neg Bool.false_ne_true, if_pos rfl, hkey]
    rfl

theorem nextKey_end (first : Bool) (level : Nat) (rest : List Char) :
    nextKey first (newLine level ++ '\x7d' :: rest) = .ok (false, '\x7d' :: rest) := by
  unfold nextKey
  rw [skipBlanks_newLine_append]
  rfl

theorem members_of_end {fuel : Nat} {first : Bool} {cs rest : List Char}
    (h : nextKey first cs = .ok (false, '\x7d' :: rest)) :
    members item (fuel + 1) first cs = .ok ([], rest) := by
  rw [members]
  show nextKey first cs >>= _ = _
  rw [h]
  rfl

/-- A member whose value reads back, and then the others. -/
theorem members_of_member {fuel : Nat} {first : Bool} {cs cs' rest : List Char} {m : String × α}
    {ms : List (String × β)} (hm : ReadsBack item write read m.2) (hends : EndsNumber cs')
    (hnext : nextKey first cs = .ok (true, memberRest write m ++ cs'))
    (hothers : members item fuel false cs' = .ok (ms, rest)) :
    members item (fuel + 1) first cs = .ok ((m.1, read m.2) :: ms, rest) := by
  have hkey : string (memberRest write m ++ cs') = .ok (m.1, ':' :: ' ' :: (write m.2 ++ cs')) := by
    rw [memberRest, List.append_assoc]
    exact string_escaped_append m.1 (':' :: ' ' :: (write m.2 ++ cs'))
  have hvalue : item (' ' :: (write m.2 ++ cs')) = .ok (read m.2, cs') :=
    hm.reads [' '] (List.forall_mem_singleton.2 rfl) hends
  rw [members]
  show nextKey first cs >>= _ = _
  rw [hnext]
  show string (memberRest write m ++ cs') >>= _ = _
  rw [hkey]
  show item (' ' :: (write m.2 ++ cs')) >>= _ = _
  rw [hvalue]
  show members item fuel false cs' >>= _ = _
  rw [hothers]
  rfl

/-- Members behind the first one read back. -/
theorem members_later {ms : List (String × α)} (hms : ∀ m ∈ ms, ReadsBack item write read m.2)
    (level : Nat) {fuel : Nat} (hfuel : ms.length < fuel) (rest : List Char) :
    members item fuel false
        (laterLines (level + 1) (ms.map (memberText write)) ++ (newLine level ++ '\x7d' :: rest))
      = .ok (ms.map fun m => (m.1, read m.2), rest) := by
  induction ms generalizing fuel with
  | nil =>
    obtain ⟨fuel, rfl⟩ := Nat.exists_eq_add_of_lt hfuel
    exact members_of_end (nextKey_end false level rest)
  | cons m ms ih =>
    obtain ⟨hm, hothers⟩ := List.forall_mem_cons.1 hms
    cases fuel with
    | zero => exact absurd hfuel (Nat.not_lt_zero _)
    | succ fuel =>
      have hends := endsNumber_laterLines_append (level + 1) (ms.map (memberText write))
        (endsNumber_newLine_append level ('\x7d' :: rest))
      rw [List.map_cons, laterLines_cons_append, memberText_append]
      exact members_of_member hm hends (nextKey_later (level + 1) _)
        (ih hothers (Nat.lt_of_succ_lt_succ hfuel))

/-- **An object reads back,** if its values do. -/
theorem exists_members_append {ms : List (String × α)}
    (hms : ∀ m ∈ ms, ReadsBack item write read m.2) (level : Nat) (rest : List Char) :
    ∃ cs, bracketedLines '\x7b' '\x7d' level (ms.map (memberText write)) ++ rest = '\x7b' :: cs ∧
      ∀ fuel, cs.length < fuel →
        members item fuel true cs = .ok (ms.map fun m => (m.1, read m.2), rest) := by
  cases ms with
  | nil =>
    refine ⟨'\x7d' :: rest, rfl, fun fuel hfuel => ?_⟩
    obtain ⟨fuel, rfl⟩ := Nat.exists_eq_add_of_lt hfuel
    exact members_of_end rfl
  | cons m ms =>
    obtain ⟨hm, hothers⟩ := List.forall_mem_cons.1 hms
    refine ⟨_, bracketedLines_cons_append _ _ _ _ _ _, fun fuel hfuel => ?_⟩
    cases fuel with
    | zero => exact absurd hfuel (Nat.not_lt_zero _)
    | succ fuel =>
      have hends := endsNumber_laterLines_append (level + 1) (ms.map (memberText write))
        (endsNumber_newLine_append level ('\x7d' :: rest))
      have hlength := length_le_length_laterLines (level + 1) (ms.map (memberText write))
      have hlater : ms.length < fuel := by
        simp only [List.length_append, List.length_map, List.length_cons] at hfuel hlength
        omega
      have hnext := nextKey_first (level + 1) (memberRest write m ++
        (laterLines (level + 1) (ms.map (memberText write)) ++ (newLine level ++ '\x7d' :: rest)))
      rw [← memberText_append] at hnext
      exact members_of_member hm hends hnext (members_later hothers level hlater rest)

end Loops

/-! ### Values -/

/-- Brackets are nested at most `depth` deep, and numbers are integers that readers keep: of 64 bits,
with a sign if they are negative. -/
inductive Value.Within : (depth : Nat) → Value → Prop
  | null {depth : Nat} : Within depth .null
  | bool {depth : Nat} (b : Bool) : Within depth (.bool b)
  | number {depth : Nat} {n : Int} (hleast : -(1 <<< 63) ≤ n) (hgreatest : n ≤ maxWord) :
    Within depth (.number (.integer n))
  | string {depth : Nat} (s : String) : Within depth (.string s)
  | array {depth : Nat} {vs : List Value} (hitems : ∀ v ∈ vs, Within depth v) :
    Within (depth + 1) (.array vs)
  | object {depth : Nat} {ms : List (String × Value)} (hmembers : ∀ m ∈ ms, Within depth m.2) :
    Within (depth + 1) (.object ms)

theorem prettyItems_eq (level : Nat) (vs : List Value) :
    prettyItems level vs = vs.map (prettyChars level) := by
  induction vs with
  | nil => rfl
  | cons v vs ih => rw [prettyItems, ih, List.map_cons]

theorem prettyMembers_eq (level : Nat) (ms : List (String × Value)) :
    prettyMembers level ms = ms.map (memberText (prettyChars level)) := by
  induction ms with
  | nil => rfl
  | cons m ms ih =>
    obtain ⟨k, v⟩ := m
    rw [prettyMembers, ih, List.map_cons]
    rfl

/-- What starts with neither a blank nor an opening bracket is a scalar. -/
theorem value_of_scalar {c : Char} (hblank : isBlank c = false) (hlist : c ≠ '[')
    (hobject : c ≠ '\x7b') (depth : Nat) {blanks : List Char}
    (hblanks : ∀ c ∈ blanks, isBlank c = true) (cs : List Char) :
    value depth (blanks ++ c :: cs) = scalar (c :: cs) := by
  have hskip : skipBlanks (blanks ++ c :: cs) = c :: cs := by
    rw [skipBlanks_append hblanks, skipBlanks_cons hblank]
  cases depth with
  | zero =>
    unfold value
    rw [hskip]
    split
    case h_1 heq => exact absurd (List.cons.inj heq).1 hlist
    case h_2 heq => exact absurd (List.cons.inj heq).1 hobject
    case h_3 => rfl
  | succ depth =>
    unfold value
    rw [hskip]
    split
    case h_1 heq => exact absurd (List.cons.inj heq).1 hlist
    case h_2 heq => exact absurd (List.cons.inj heq).1 hobject
    case h_3 => rfl

/-- A scalar in a text: it starts with neither a blank nor a bracket and reads back. -/
structure ScalarReadsBack (cs : List Char) (v : Value) : Prop where
  starts : ∃ c cs', cs = c :: cs' ∧ isBlank c = false ∧ c ∉ ['[', ']', '\x7b', '\x7d']
  reads : ∀ {rest : List Char}, EndsNumber rest → scalar (cs ++ rest) = .ok (v, rest)

theorem scalar_digit_cons {d : Char} (hd : isDigit d = true) {n : Nat} {cs rest : List Char}
    (hread : number false (d :: cs) = .ok (.integer n, rest)) :
    scalar (d :: cs) = .ok (.number (.integer n), rest) := by
  unfold scalar
  split
  case h_1 heq => cases heq
  case h_2 heq => exact absurd ((List.cons.inj heq).1 ▸ hd) (by decide)
  case h_3 heq => exact absurd ((List.cons.inj heq).1 ▸ hd) (by decide)
  case h_4 heq => exact absurd ((List.cons.inj heq).1 ▸ hd) (by decide)
  case h_5 heq => exact absurd ((List.cons.inj heq).1 ▸ hd) (by decide)
  case h_6 heq => exact absurd ((List.cons.inj heq).1 ▸ hd) (by decide)
  case h_7 heq =>
    rw [← (List.cons.inj heq).1, ← (List.cons.inj heq).2, if_pos hd, hread]
    rfl

theorem numberText_natCast (n : Nat) : numberText (.integer n) = Nat.toDigits 10 n := by
  show (Nat.repr n).toList = _
  exact Nat.toList_repr

theorem numberText_neg {n : Nat} (hn : 0 < n) :
    numberText (.integer (-n)) = '-' :: Nat.toDigits 10 n := by
  obtain ⟨n, rfl⟩ := Nat.exists_eq_succ_of_ne_zero (Nat.ne_of_gt hn)
  show ("-" ++ Nat.repr (n + 1)).toList = _
  rw [String.toList_append, Nat.toList_repr]
  rfl

/-- A digit is neither a blank nor a bracket. -/
theorem ne_of_isDigit {c d : Char} (hd : isDigit d = true) (hc : isDigit c = false) : d ≠ c := by
  rintro rfl
  rw [hd] at hc
  cases hc

theorem scalarReadsBack_natural {n : Nat} (hn : n ≤ maxWord) :
    ScalarReadsBack (Nat.toDigits 10 n) (.number (.integer n)) := by
  obtain ⟨d, ds, hds⟩ := List.exists_cons_of_ne_nil (Nat.toDigits_ne_nil (n := n) (b := 10))
  have hd : isDigit d = true := isDigit_of_mem_toDigits (hds ▸ List.mem_cons_self)
  refine ⟨⟨d, ds, hds, ?_, ?_⟩, fun {rest} hrest => ?_⟩
  · simp (disch := decide) [isBlank, ne_of_isDigit hd]
  · simp (disch := decide) [ne_of_isDigit hd]
  · have hread := number_toDigits_append hn false hrest
    rw [hds] at hread ⊢
    exact scalar_digit_cons hd hread

theorem scalarReadsBack_negative {n : Nat} (hpos : 0 < n) (hn : n ≤ 1 <<< 63) :
    ScalarReadsBack ('-' :: Nat.toDigits 10 n) (.number (.integer (-n))) := by
  refine ⟨⟨'-', _, rfl, rfl, by decide⟩, fun {rest} hrest => ?_⟩
  have hword : n ≤ maxWord := hn.trans (by decide)
  have hread := number_toDigits_append hword true hrest
  have hwhole : wholeNumber true n = .integer (-n) := by
    rw [wholeNumber, if_neg (by decide), if_neg (by omega)]
  rw [hwhole] at hread
  show (number true (Nat.toDigits 10 n ++ rest) >>= _) = _
  rw [hread]
  rfl

/-- **An integer reads back.** -/
theorem scalarReadsBack_integer {n : Int} (hleast : -(1 <<< 63) ≤ n) (hgreatest : n ≤ maxWord) :
    ScalarReadsBack (numberText (.integer n)) (.number (.integer n)) := by
  obtain ⟨k, rfl | rfl⟩ := n.eq_nat_or_neg
  · rw [numberText_natCast]
    exact scalarReadsBack_natural (Int.ofNat_le.1 hgreatest)
  · rcases Nat.eq_zero_or_pos k with rfl | hpos
    · exact scalarReadsBack_natural (Nat.zero_le _)
    · rw [numberText_neg hpos]
      have hk : k ≤ 1 <<< 63 := by
        have hcast : (k : Int) ≤ 1 <<< 63 := Int.neg_le_neg_iff.1 hleast
        exact_mod_cast hcast
      exact scalarReadsBack_negative hpos hk

theorem scalarReadsBack_string (s : String) : ScalarReadsBack (quotedString s) (.string s) := by
  refine ⟨⟨'"', _, rfl, rfl, by decide⟩, fun {rest} _ => ?_⟩
  have hread := string_escaped_append s rest
  show (string ((s.toList.flatMap escapedChar ++ ['"']) ++ rest) >>= _) = _
  rw [List.append_assoc]
  show (string (s.toList.flatMap escapedChar ++ '"' :: rest) >>= _) = _
  rw [hread]
  rfl

theorem scalarReadsBack_bool (b : Bool) : ScalarReadsBack (boolText b) (.bool b) := by
  cases b with
  | true => exact ⟨⟨'t', _, rfl, rfl, by decide⟩, fun _ => rfl⟩
  | false => exact ⟨⟨'f', _, rfl, rfl, by decide⟩, fun _ => rfl⟩

theorem scalarReadsBack_null : ScalarReadsBack ['n', 'u', 'l', 'l'] .null :=
  ⟨⟨'n', _, rfl, rfl, by decide⟩, fun _ => rfl⟩

/-- A scalar reads back as a value, at any depth. -/
theorem ScalarReadsBack.readsBack {depth level : Nat} {v : Value}
    (h : ScalarReadsBack (prettyChars level v) v.sorted) :
    ReadsBack (value depth) (prettyChars level) Value.sorted v := by
  obtain ⟨⟨c, cs, htext, hblank, hbracket⟩, hreads⟩ := h
  simp only [List.mem_cons, List.not_mem_nil, or_false, not_or] at hbracket
  obtain ⟨hlist, hendlist, hobject, hendobject⟩ := hbracket
  refine ⟨⟨c, cs, htext, hblank, hendlist, hendobject⟩, fun blanks {rest} hblanks hrest => ?_⟩
  have hread := hreads hrest
  rw [htext] at hread ⊢
  exact (value_of_scalar hblank hlist hobject depth hblanks (cs ++ rest)).trans hread

theorem value_list {depth : Nat} {blanks cs : List Char}
    (hblanks : ∀ c ∈ blanks, isBlank c = true) :
    value (depth + 1) (blanks ++ '[' :: cs) =
      items (value depth) (blanks ++ '[' :: cs).length true cs >>=
        fun (vs, rest) => .ok (.array vs, rest) := by
  rw [value]
  dsimp only
  rw [skipBlanks_append hblanks]
  rfl

theorem value_object {depth : Nat} {blanks cs : List Char}
    (hblanks : ∀ c ∈ blanks, isBlank c = true) :
    value (depth + 1) (blanks ++ '\x7b' :: cs) =
      members (value depth) (blanks ++ '\x7b' :: cs).length true cs >>=
        fun (ms, rest) => .ok (.object (ofMembers ms), rest) := by
  rw [value]
  dsimp only
  rw [skipBlanks_append hblanks]
  rfl

/-- **A value reads back** with its members in the order of their keys. -/
theorem Value.Within.readsBack {depth : Nat} {v : Value} (h : v.Within depth) (level : Nat) :
    ReadsBack (value depth) (prettyChars level) Value.sorted v := by
  induction h generalizing level with
  | null => exact ScalarReadsBack.readsBack (v := .null) scalarReadsBack_null
  | bool b => exact ScalarReadsBack.readsBack (v := .bool b) (scalarReadsBack_bool b)
  | @number depth n hleast hgreatest =>
    exact ScalarReadsBack.readsBack (v := .number (.integer n))
      (scalarReadsBack_integer hleast hgreatest)
  | string s => exact ScalarReadsBack.readsBack (v := .string s) (scalarReadsBack_string s)
  | @array depth vs hitems ih =>
    have hlines := exists_items_append (fun v hv => ih v hv (level + 1)) level
    have htext : prettyChars level (.array vs) =
        bracketedLines '[' ']' level (vs.map (prettyChars (level + 1))) := by
      rw [prettyChars, prettyItems_eq]
    refine ⟨?_, fun blanks {rest} hblanks _ => ?_⟩
    · obtain ⟨cs, hcs, -⟩ := hlines []
      rw [List.append_nil] at hcs
      exact ⟨'[', cs, htext.trans hcs, rfl, by decide⟩
    · obtain ⟨cs, hcs, hread⟩ := hlines rest
      have hfuel : cs.length < (blanks ++ '[' :: cs).length := by
        rw [List.length_append, List.length_cons]
        omega
      rw [htext, hcs, value_list hblanks, hread _ hfuel, sorted, sortedItems_eq]
      rfl
  | @object depth ms hmembers ih =>
    have hlines := exists_members_append (fun m hm => ih m hm (level + 1)) level
    have htext : prettyChars level (.object ms) =
        bracketedLines '\x7b' '\x7d' level (ms.map (memberText (prettyChars (level + 1)))) := by
      rw [prettyChars, prettyMembers_eq]
    refine ⟨?_, fun blanks {rest} hblanks _ => ?_⟩
    · obtain ⟨cs, hcs, -⟩ := hlines []
      rw [List.append_nil] at hcs
      exact ⟨'\x7b', cs, htext.trans hcs, rfl, by decide⟩
    · obtain ⟨cs, hcs, hread⟩ := hlines rest
      have hfuel : cs.length < (blanks ++ '\x7b' :: cs).length := by
        rw [List.length_append, List.length_cons]
        omega
      rw [htext, hcs, value_object hblanks, hread _ hfuel, sorted, sortedMembers_eq]
      rfl

/-- **A document reads back** from its pretty form. -/
theorem document_pretty {v : Value} (h : v.Within maxDepth) : document (pretty v) = .ok v.sorted := by
  have hread := (h.readsBack 0).reads_append endsNumber_nil
  rw [List.append_nil] at hread
  rw [document, pretty, String.toList_ofList, wholly, hread]
  rfl

end Json
end SnippetConsole
