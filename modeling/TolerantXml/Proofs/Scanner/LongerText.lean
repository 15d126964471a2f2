import Mathlib.Data.List.Basic
import Mathlib.Data.List.TakeWhile
import TolerantXml.Scanner.Step

/-!
# Lexemes of a longer text

Which lexemes are the same if a text goes on. A lexeme that ends inside a text is the same whatever
follows (the lemmas `…_append_of_ne`), and so is one that stops at a character, in front of any text
that starts with it (`…_append_cons`) or has it somewhere (`…_append_of_mem`). A lexeme of a longer
text that does not leave a part of it is the lexeme of that part (`…_eq_of_prefix`).
-/

namespace TolerantXml.Lexeme

variable {p : Char → Bool} {pattern front x v : Text} {c : Char}

/-- A run that ends in a text ends there whatever follows. -/
theorem run_append_of_ne (ends : run p x ≠ x) (w : Text) : run p (x ++ w) = run p x := by
  rw [run, run, List.takeWhile_append, if_neg]
  intro length
  exact ends ((List.takeWhile_prefix p).eq_of_length length)

private theorem length_run_lt (ends : run p x ≠ x) : (run p x).length < x.length :=
  Nat.lt_of_le_of_ne (List.takeWhile_prefix p).length_le fun length ↦
    ends ((List.takeWhile_prefix p).eq_of_length length)

theorem run_append_cons (outside : p c = false) (x w : Text) : run p (x ++ c :: w) = run p x := by
  by_cases ends : run p x = x
  · rw [run] at ends
    rw [run, List.takeWhile_append, if_pos (by rw [ends]), List.takeWhile_cons_of_neg,
      List.append_nil, run, ends]
    rw [outside]
    decide
  · exact run_append_of_ne ends _

/-- A run that does not leave a text is the run in that text. -/
theorem run_eq_of_prefix (within : run p (x ++ v) <+: x) : run p x = run p (x ++ v) := by
  by_cases ends : run p x = x
  · rw [run] at ends
    rw [run, run, List.takeWhile_append, if_pos (by rw [ends])] at *
    have short := within.length_le
    rw [List.length_append] at short
    have none : v.takeWhile p = [] := List.length_eq_zero_iff.1 (by omega)
    rw [ends, none, List.append_nil]
  · exact (run_append_of_ne ends v).symm

theorem run_ne_of_mem (mem : c ∈ x) (outside : p c = false) : run p x ≠ x := by
  intro all
  have holds := List.takeWhile_eq_self_iff.1 all c mem
  rw [outside] at holds
  cases holds

private theorem take_one_drop_append {n : Nat} (lt : n < x.length) (w : Text) :
    ((x ++ w).drop n).take 1 = (x.drop n).take 1 := by
  rw [List.drop_append_of_le_length (Nat.le_of_lt lt), List.take_append_of_le_length]
  rw [List.length_drop]
  omega

private theorem head?_drop_append {n : Nat} (lt : n < x.length) (w : Text) :
    ((x ++ w).drop n).head? = (x.drop n).head? := by
  rw [List.drop_append_of_le_length (Nat.le_of_lt lt), List.head?_append_of_ne_nil]
  intro isNil
  rw [List.drop_eq_nil_iff] at isNil
  omega

theorem bareValue_append_of_ne (ends : run isBareValueChar x ≠ x) (w : Text) :
    bareValue (x ++ w) = bareValue x := by
  rw [bareValue, bareValue, run_append_of_ne ends, head?_drop_append (length_run_lt ends)]

private theorem groupTail_append_of_ne {depth : Nat} (ends : groupTail depth x ≠ x) (w : Text) :
    groupTail depth (x ++ w) = groupTail depth x := by
  fun_induction groupTail depth x with
  | case1 => exact absurd rfl ends
  | case2 depth c x isAngle => simp only [List.cons_append, groupTail, isAngle, ↓reduceIte]
  | case3 depth x notAngle ih =>
    have ih := ih fun eq ↦ ends (by rw [eq])
    simp only [List.cons_append, groupTail, notAngle, ↓reduceIte, ih]
  | case4 x notAngle notOpen =>
    simp only [List.cons_append, groupTail, notAngle, notOpen, ↓reduceIte]
  | case5 x depth notAngle notOpen ih =>
    have ih := ih fun eq ↦ ends (by rw [eq])
    simp only [List.cons_append, groupTail, notAngle, notOpen, ↓reduceIte, ih]
  | case6 depth c x notAngle notOpen notClose ih =>
    have ih := ih fun eq ↦ ends (by rw [eq])
    simp only [List.cons_append, groupTail, notAngle, notOpen, notClose, ↓reduceIte, ih]

theorem group_append_of_ne (ends : group x ≠ x) (w : Text) : group (x ++ w) = group x := by
  cases x with
  | nil => exact absurd rfl ends
  | cons c x =>
    rw [List.cons_append, group, group] at *
    split
    · next isOpen =>
      rw [if_pos isOpen] at ends
      rw [groupTail_append_of_ne fun eq ↦ ends (by rw [eq])]
    · rfl

theorem contentModel_append_of_ne (ends : contentModel x ≠ x) (w : Text) :
    contentModel (x ++ w) = contentModel x := by
  have groupEnds : group x ≠ x := by
    intro all
    cases x with
    | nil => exact ends rfl
    | cons c x =>
      apply ends
      rw [contentModel, all]
      simp [run]
  have length := (isPrefix_group x).length_le
  rw [contentModel, contentModel, group_append_of_ne groupEnds]
  cases isGroup : group x with
  | nil => rfl
  | cons c tail =>
    have lt : tail.length + 1 < x.length := by
      rw [isGroup] at groupEnds length
      refine Nat.lt_of_le_of_ne length fun eq ↦ groupEnds ?_
      exact (isGroup ▸ isPrefix_group x).eq_of_length eq
    simp only [take_one_drop_append lt]

/-- A fixed text stops in front of a character that it does not have. -/
theorem isPrefixOf_append_cons (free : c ∉ pattern) (x w : Text) :
    pattern.isPrefixOf (x ++ c :: w) = pattern.isPrefixOf x := by
  induction pattern generalizing x with
  | nil => rfl
  | cons d pattern ih =>
    simp only [List.mem_cons, not_or] at free
    obtain ⟨differ, free⟩ := free
    cases x with
    | nil => simp [List.isPrefixOf, Ne.symm differ]
    | cons e x => rw [List.cons_append, List.isPrefixOf, List.isPrefixOf, ih free]

/-- It stops there too if it has that character only at its start, and the text is not empty. -/
theorem isPrefixOf_append_cons_of_tail (nonempty : x ≠ []) (free : c ∉ pattern.tail) (w : Text) :
    pattern.isPrefixOf (x ++ c :: w) = pattern.isPrefixOf x := by
  cases pattern with
  | nil => rfl
  | cons d pattern =>
    cases x with
    | nil => exact absurd rfl nonempty
    | cons e x =>
      have same : pattern.isPrefixOf (x ++ c :: w) = pattern.isPrefixOf x :=
        isPrefixOf_append_cons free x w
      rw [List.cons_append, List.isPrefixOf, List.isPrefixOf, same]

private theorem isPrefixOf_append_of_mem (mem : c ∈ x) (free : c ∉ pattern) (v : Text) :
    pattern.isPrefixOf (x ++ v) = pattern.isPrefixOf x := by
  obtain ⟨front, behind, rfl⟩ := List.append_of_mem mem
  rw [List.append_assoc, List.cons_append, isPrefixOf_append_cons free,
    isPrefixOf_append_cons free]

theorem literal_eq_of_prefix (within : literal pattern (x ++ v) <+: x) :
    literal pattern x = literal pattern (x ++ v) := by
  rw [literal, literal] at *
  split at within
  · next ahead => rw [if_pos ahead, if_pos (List.isPrefixOf_iff_prefix.2 within)]
  · next notAhead =>
    rw [if_neg notAhead, if_neg]
    intro ahead
    rw [List.isPrefixOf_iff_prefix] at ahead notAhead
    exact notAhead (ahead.trans (List.prefix_append x v))

/-- A fixed text in front of the end or of a character of some class. Keywords are such lexemes. -/
def delimited (p : Char → Bool) (pattern rest : Text) : Text :=
  if pattern.isPrefixOf rest && (rest.drop pattern.length).head?.all p then pattern else []

theorem delimited_self (p : Char → Bool) (pattern : Text) :
    delimited p pattern pattern = pattern := by
  simp [delimited]

theorem percentSign_eq (rest : Text) : Scanner.percentSign rest = delimited isSpace ['%'] rest := by
  cases rest with
  | nil => rfl
  | cons c rest =>
    by_cases isPercent : c = '%'
    · subst isPercent
      cases rest <;> simp [Scanner.percentSign, delimited]
    · simp [Scanner.percentSign, delimited, isPercent, Ne.symm isPercent]

theorem delimited_append_of_mem (mem : c ∈ x) (free : c ∉ pattern) (v : Text) :
    delimited p pattern (x ++ v) = delimited p pattern x := by
  rw [delimited, delimited, isPrefixOf_append_of_mem mem free]
  cases ahead : pattern.isPrefixOf x with
  | false => rfl
  | true =>
    have isPrefix := List.isPrefixOf_iff_prefix.1 ahead
    have lt : pattern.length < x.length := by
      refine Nat.lt_of_le_of_ne isPrefix.length_le fun length ↦ ?_
      rw [isPrefix.eq_of_length length] at free
      exact free mem
    rw [head?_drop_append lt]

theorem delimited_append_cons (free : c ∉ pattern) (ends : pattern ≠ x) (w : Text) :
    delimited p pattern (x ++ c :: w) = delimited p pattern x := by
  rw [delimited, delimited, isPrefixOf_append_cons free]
  cases ahead : pattern.isPrefixOf x with
  | false => rfl
  | true =>
    have isPrefix := List.isPrefixOf_iff_prefix.1 ahead
    have lt : pattern.length < x.length :=
      Nat.lt_of_le_of_ne isPrefix.length_le fun length ↦ ends (isPrefix.eq_of_length length)
    rw [head?_drop_append lt]

private theorem literalAnyCase_eq (pattern rest : Text) : literalAnyCase pattern rest =
    if (pattern.map Char.toLower).isPrefixOf (rest.map Char.toLower) then rest.take pattern.length
    else [] := by
  have same : (rest.take pattern.length).map Char.toLower = pattern.map Char.toLower ↔
      (pattern.map Char.toLower).isPrefixOf (rest.map Char.toLower) = true := by
    rw [List.isPrefixOf_iff_prefix, List.prefix_iff_eq_take, List.length_map, List.map_take]
    exact eq_comm
  simp only [literalAnyCase, same]

theorem literalAnyCase_append {w : Text}
    (same : (pattern.map Char.toLower).isPrefixOf (x.map Char.toLower ++ w.map Char.toLower) =
      (pattern.map Char.toLower).isPrefixOf (x.map Char.toLower)) :
    literalAnyCase pattern (x ++ w) = literalAnyCase pattern x := by
  rw [literalAnyCase_eq, literalAnyCase_eq, List.map_append, same]
  split
  · next ahead =>
    have length := (List.isPrefixOf_iff_prefix.1 ahead).length_le
    rw [List.length_map, List.length_map] at length
    rw [List.take_append_of_le_length length]
  · rfl

theorem literalAnyCase_append_cons (free : c.toLower ∉ pattern.map Char.toLower) (x w : Text) :
    literalAnyCase pattern (x ++ c :: w) = literalAnyCase pattern x :=
  literalAnyCase_append (isPrefixOf_append_cons free _ _)

theorem literalAnyCase_append_of_mem (mem : c ∈ x) (free : c.toLower ∉ pattern.map Char.toLower)
    (v : Text) : literalAnyCase pattern (x ++ v) = literalAnyCase pattern x :=
  literalAnyCase_append (isPrefixOf_append_of_mem (List.mem_map_of_mem mem) free _)

theorem literalAnyCase_eq_of_prefix (within : literalAnyCase pattern (x ++ v) <+: x) :
    literalAnyCase pattern x = literalAnyCase pattern (x ++ v) := by
  rw [literalAnyCase_eq] at within ⊢
  rw [literalAnyCase_eq]
  have more : x.map Char.toLower <+: (x ++ v).map Char.toLower := by
    rw [List.map_append]
    exact List.prefix_append _ _
  simp only [List.isPrefixOf_iff_prefix] at *
  split at within
  · next ahead =>
    have length := ahead.length_le
    have fits := within.length_le
    rw [List.length_map, List.length_map] at length
    rw [List.length_take, Nat.min_eq_left length] at fits
    have inside : pattern.map Char.toLower <+: x.map Char.toLower :=
      List.prefix_of_prefix_length_le ahead more (by simpa using fits)
    rw [if_pos ahead, if_pos inside, List.take_append_of_le_length fits]
  · next notAhead => rw [if_neg notAhead, if_neg fun ahead ↦ notAhead (ahead.trans more)]

/-- Only a text that is at least as long as a pattern has it. -/
private theorem length_le_of_upTo_ne (ends : upTo pattern x ≠ x) : pattern.length ≤ x.length := by
  induction x with
  | nil => exact absurd rfl ends
  | cons c x ih =>
    rw [upTo] at ends
    split at ends
    · next ahead => exact (List.isPrefixOf_iff_prefix.1 ahead).length_le
    · exact Nat.le_succ_of_le (ih fun eq ↦ ends (by rw [eq]))

theorem upTo_ne_of_infix (nonempty : pattern ≠ []) (occurs : pattern <:+: x) :
    upTo pattern x ≠ x := by
  induction x with
  | nil => exact absurd (List.infix_nil.1 occurs) nonempty
  | cons c x ih =>
    rw [upTo]
    split
    · exact (List.cons_ne_nil c x).symm
    · next notAhead =>
      rw [List.isPrefixOf_iff_prefix] at notAhead
      have behind := (List.infix_cons_iff.1 occurs).resolve_left notAhead
      exact fun eq ↦ ih behind (List.cons.inj eq).2

theorem upTo_append_of_ne (ends : upTo pattern x ≠ x) (w : Text) :
    upTo pattern (x ++ w) = upTo pattern x := by
  induction x with
  | nil => exact absurd rfl ends
  | cons c x ih =>
    have length := length_le_of_upTo_ne ends
    have same : pattern.isPrefixOf (c :: (x ++ w)) = pattern.isPrefixOf (c :: x) := by
      rw [Bool.eq_iff_iff, List.isPrefixOf_iff_prefix, List.isPrefixOf_iff_prefix]
      constructor
      · intro ahead
        exact List.prefix_of_prefix_length_le ahead (List.prefix_append (c :: x) w) length
      · exact fun ahead ↦ ahead.trans (List.prefix_append (c :: x) w)
    rw [upTo] at ends
    rw [List.cons_append, upTo, upTo, same]
    split
    · rfl
    · next notAhead =>
      rw [if_neg notAhead] at ends
      rw [ih fun eq ↦ ends (by rw [eq])]

/-- A pattern of which `c` is the last character and nowhere else does not go on behind a text that
ends with `c`. -/
private theorem isPrefixOf_concat_append (free : c ∉ front) (x v : Text) :
    (front ++ [c]).isPrefixOf (x ++ [c] ++ v) = (front ++ [c]).isPrefixOf (x ++ [c]) := by
  induction front generalizing x with
  | nil => cases x <;> simp [List.isPrefixOf]
  | cons d front ih =>
    simp only [List.mem_cons, not_or] at free
    obtain ⟨differ, free⟩ := free
    cases x with
    | nil => simp [List.isPrefixOf, Ne.symm differ]
    | cons e x => simp only [List.cons_append, List.isPrefixOf, ih free x]

theorem upTo_eq_of_prefix (free : c ∉ front) (last : x.getLast? = some c)
    (within : upTo (front ++ [c]) (x ++ v) <+: x) :
    upTo (front ++ [c]) x = upTo (front ++ [c]) (x ++ v) := by
  induction x with
  | nil => cases last
  | cons d x ih =>
    obtain ⟨y, eq⟩ := List.getLast?_eq_some_iff.1 last
    have same : (front ++ [c]).isPrefixOf (d :: (x ++ v)) = (front ++ [c]).isPrefixOf (d :: x) := by
      rw [← List.cons_append, eq, isPrefixOf_concat_append free]
    rw [List.cons_append, upTo, same] at within
    rw [List.cons_append, upTo, upTo, same]
    split
    · rfl
    · next notAhead =>
      rw [if_neg notAhead] at within
      have within := (List.cons_prefix_cons.1 within).2
      cases x with
      | nil => rw [List.prefix_nil.1 within, upTo]
      | cons e x => rw [ih (by simpa using last) within]

theorem quoted_append_of_ne (ends : quoted x ≠ x) (w : Text) : quoted (x ++ w) = quoted x := by
  cases x with
  | nil => exact absurd rfl ends
  | cons mark x =>
    rw [List.cons_append, quoted, quoted]
    split
    · next isQuote =>
      have runEnds : run (· != mark) x ≠ x := by
        intro all
        apply ends
        rw [quoted, if_pos isQuote]
        simp [all]
      simp only [run_append_of_ne runEnds, take_one_drop_append (length_run_lt runEnds)]
    · rfl

theorem quoted_eq_of_prefix (nonempty : x ≠ []) (within : quoted (x ++ v) <+: x) :
    quoted x = quoted (x ++ v) := by
  cases x with
  | nil => exact absurd rfl nonempty
  | cons mark x =>
    rw [List.cons_append, quoted] at within ⊢
    rw [quoted]
    split
    · next isQuote =>
      rw [if_pos isQuote] at within
      have within := (List.cons_prefix_cons.1 within).2
      have inner := run_eq_of_prefix ((List.prefix_append _ _).trans within)
      obtain ⟨behind, eq⟩ := isPrefix_run (· != mark) x
      simp only [← inner] at within ⊢
      generalize run (· != mark) x = taken at *
      subst eq
      rw [List.append_assoc, List.drop_left, List.prefix_append_right_inj] at within
      rw [List.append_assoc, List.drop_left, List.drop_left]
      cases behind with
      | nil => rw [List.prefix_nil.1 within, List.take_nil]
      | cons d behind => rfl
    · rfl

private theorem groupTail_eq_of_prefix {depth : Nat} (within : groupTail depth (x ++ v) <+: x) :
    groupTail depth x = groupTail depth (x ++ v) := by
  fun_induction groupTail depth x with
  | case1 => exact (List.prefix_nil.1 within).symm
  | case2 depth c x isAngle => simp only [List.cons_append, groupTail, isAngle, ↓reduceIte]
  | case3 depth x notAngle ih =>
    simp only [List.cons_append, groupTail, notAngle, ↓reduceIte, List.cons_prefix_cons, true_and,
      List.cons.injEq] at within ⊢
    exact ih within
  | case4 x notAngle notOpen =>
    simp only [List.cons_append, groupTail, notAngle, notOpen, ↓reduceIte]
  | case5 x depth notAngle notOpen ih =>
    simp only [List.cons_append, groupTail, notAngle, notOpen, ↓reduceIte, List.cons_prefix_cons,
      true_and, List.cons.injEq] at within ⊢
    exact ih within
  | case6 depth c x notAngle notOpen notClose ih =>
    simp only [List.cons_append, groupTail, notAngle, notOpen, notClose, ↓reduceIte,
      List.cons_prefix_cons, true_and, List.cons.injEq] at within ⊢
    exact ih within

/-- A group that does not leave a text is the group in that text. -/
theorem group_eq_of_prefix (within : group (x ++ v) <+: x) : group x = group (x ++ v) := by
  cases x with
  | nil => exact (List.prefix_nil.1 within).symm
  | cons c x =>
    rw [List.cons_append, group] at within ⊢
    rw [group]
    split
    · next isOpen =>
      rw [if_pos isOpen] at within
      have inner := groupTail_eq_of_prefix (List.cons_prefix_cons.1 within).2
      rw [inner]
    · rfl

theorem contentModel_eq_of_prefix (within : contentModel (x ++ v) <+: x) :
    contentModel x = contentModel (x ++ v) := by
  have inner : group x = group (x ++ v) := by
    refine group_eq_of_prefix (List.IsPrefix.trans ?_ within)
    rw [contentModel]
    split
    · next isGroup => exact isGroup ▸ List.nil_prefix
    · next isGroup => exact isGroup ▸ List.prefix_append _ _
  obtain ⟨behind, eq⟩ := isPrefix_group x
  rw [inner] at eq
  rw [contentModel, inner]
  rw [contentModel] at within ⊢
  split
  · rfl
  · next c tail isGroup =>
    rw [isGroup] at eq
    simp only [isGroup] at within
    subst eq
    have drop : (c :: tail ++ behind).drop (tail.length + 1) = behind := List.drop_left
    have drop' : (c :: tail ++ behind ++ v).drop (tail.length + 1) = behind ++ v := by
      rw [List.append_assoc]
      exact List.drop_left
    rw [drop', List.prefix_append_right_inj] at within
    rw [drop, drop']
    cases behind with
    | nil => rw [List.prefix_nil.1 within]; rfl
    | cons d behind => rfl

end TolerantXml.Lexeme
