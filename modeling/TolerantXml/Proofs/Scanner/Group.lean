import TolerantXml.Scanner.Lexeme

/-!
# Groups in round brackets

A group is a text in which every closing bracket has an opening one before it, from the first
character on, and which closes all that it opens (`IsGroup`). While one is read the groups that are
open are counted, and no bracket takes the count below zero (`countedGroup_succ`). What is read is
the shortest group ahead if no angle bracket is in it; otherwise it is everything up to the first
angle bracket, or to the end of the text (`readsGroup_group`).
-/

namespace TolerantXml.Lexeme

variable {before rest : Text} {depth : Nat} {c : Char}

/-- Whether a character ends a group that is not closed. -/
def isAngle (c : Char) : Bool := c == '<' || c == '>'

/-- Whether a text is a group: it opens one, no bracket closes what is not open, and in the end
nothing is open. -/
structure IsGroup (text : Text) : Prop where
  opens : text.head? = some '('
  level : ∀ before, before <+: text → before.count ')' ≤ before.count '('
  closes : text.count ')' = text.count '('

/-- The characters of a group by a count of the groups that are open, from which a closing bracket
takes one away before it is compared with zero. There is no result if there is nothing to take. -/
def countedGroup (depth : Nat) : Text → Option Text
  | [] => some []
  | c :: rest =>
    if c = '<' ∨ c = '>' then some []
    else if c = '(' then (countedGroup (depth + 1) rest).map (c :: ·)
    else if c = ')' then
      if depth = 0 then none
      else if depth - 1 = 0 then some [c]
      else (countedGroup (depth - 1) rest).map (c :: ·)
    else (countedGroup depth rest).map (c :: ·)

/-- How much is read of a text ahead that a group may start. -/
structure ReadsGroup (rest taken : Text) : Prop where
  counted : countedGroup 0 rest = some taken
  nonempty : taken ≠ []
  starts : taken <+: rest
  shortest : ∀ before, before <+: taken → before ≠ taken → ¬ IsGroup before
  ends : IsGroup taken ∧ (∀ c ∈ taken, isAngle c = false) ∨
    taken = rest.takeWhile (!isAngle ·) ∧
      ∀ before, before <+: rest → IsGroup before → ∃ c ∈ before, isAngle c = true

/-! ### The rest of a group -/

private theorem isAngle_eq_true : isAngle c = true ↔ c = '<' ∨ c = '>' := by
  rw [isAngle, Bool.or_eq_true, beq_iff_eq, beq_iff_eq]

private theorem isAngle_eq_false (notAngle : ¬ (c = '<' ∨ c = '>')) : isAngle c = false := by
  rwa [← Bool.not_eq_true, isAngle_eq_true]

/-- In a group at least one group is open, so the count never falls below zero. -/
theorem countedGroup_succ (depth : Nat) (rest : Text) :
    countedGroup (depth + 1) rest = some (groupTail depth rest) := by
  fun_induction groupTail depth rest with
  | case1 => rfl
  | case2 depth c rest angle => rw [countedGroup, if_pos angle]
  | case3 depth rest angle ih =>
    rw [countedGroup, if_neg angle, if_pos rfl, ih, Option.map_some]
  | case4 rest angle opens => rw [countedGroup, if_neg angle, if_neg opens, if_pos rfl]; rfl
  | case5 rest depth angle opens ih =>
    rw [countedGroup, if_neg angle, if_neg opens, if_pos rfl, if_neg (by omega), if_neg (by omega),
      Nat.add_sub_cancel, ih, Option.map_some]
  | case6 depth c rest angle opens closes ih =>
    rw [countedGroup, if_neg angle, if_neg opens, if_neg closes, ih, Option.map_some]

/-- In front of the end of the lexeme, at most the groups inside the outer one are closed. -/
private theorem level_groupTail (starts : before <+: groupTail depth rest)
    (notAll : before ≠ groupTail depth rest) :
    before.count ')' ≤ before.count '(' + depth := by
  induction before generalizing depth rest with
  | nil => exact Nat.zero_le _
  | cons c before ih =>
    revert starts notAll
    fun_cases groupTail depth rest with
    | case1 | case2 => exact fun starts _ ↦ absurd (List.prefix_nil.1 starts) (List.cons_ne_nil _ _)
    | case3 rest angle =>
      intro starts notAll
      obtain ⟨rfl, tail⟩ := List.cons_prefix_cons.1 starts
      have := ih tail fun all ↦ notAll (all ▸ rfl)
      rw [List.count_cons_of_ne (by decide), List.count_cons_self]
      omega
    | case4 rest angle opens =>
      intro starts notAll
      obtain ⟨rfl, tail⟩ := List.cons_prefix_cons.1 starts
      exact absurd (congrArg (List.cons _) (List.prefix_nil.1 tail)) notAll
    | case5 rest depth angle opens =>
      intro starts notAll
      obtain ⟨rfl, tail⟩ := List.cons_prefix_cons.1 starts
      have := ih tail fun all ↦ notAll (all ▸ rfl)
      rw [List.count_cons_self, List.count_cons_of_ne (by decide)]
      omega
    | case6 _ _ rest angle opens closes =>
      intro starts notAll
      obtain ⟨rfl, tail⟩ := List.cons_prefix_cons.1 starts
      rw [List.count_cons_of_ne opens, List.count_cons_of_ne closes]
      exact ih tail fun all ↦ notAll (all ▸ rfl)

/-- The lexeme closes the outer group, or it ends in front of an angle bracket or at the end of the
text. -/
private theorem groupTail_cases (depth : Nat) (rest : Text) :
    (∀ c ∈ groupTail depth rest, isAngle c = false) ∧
      (groupTail depth rest).count ')' = (groupTail depth rest).count '(' + depth + 1 ∨
    groupTail depth rest = rest.takeWhile (!isAngle ·) ∧
      (groupTail depth rest).count ')' ≤ (groupTail depth rest).count '(' + depth := by
  fun_induction groupTail depth rest with
  | case1 => exact .inr ⟨rfl, Nat.zero_le _⟩
  | case2 depth c rest angle =>
    refine .inr ⟨?_, Nat.zero_le _⟩
    rw [List.takeWhile_cons_of_neg (by rw [isAngle_eq_true.2 angle]; decide)]
  | case3 depth rest angle ih =>
    rw [List.count_cons_of_ne (by decide), List.count_cons_self]
    rcases ih with ⟨free, closed⟩ | ⟨all, level⟩
    · exact .inl ⟨List.forall_mem_cons.2 ⟨rfl, free⟩, by omega⟩
    · exact .inr ⟨by rw [all, List.takeWhile_cons_of_pos rfl], by omega⟩
  | case4 rest angle opens => exact .inl ⟨List.forall_mem_singleton.2 rfl, rfl⟩
  | case5 rest depth angle opens ih =>
    rw [List.count_cons_self, List.count_cons_of_ne (by decide)]
    rcases ih with ⟨free, closed⟩ | ⟨all, level⟩
    · exact .inl ⟨List.forall_mem_cons.2 ⟨rfl, free⟩, by omega⟩
    · exact .inr ⟨by rw [all, List.takeWhile_cons_of_pos rfl], by omega⟩
  | case6 depth c rest angle opens closes ih =>
    rw [List.count_cons_of_ne opens, List.count_cons_of_ne closes]
    have inside := isAngle_eq_false angle
    rcases ih with ⟨free, closed⟩ | ⟨all, level⟩
    · exact .inl ⟨List.forall_mem_cons.2 ⟨inside, free⟩, closed⟩
    · exact .inr ⟨by rw [all, List.takeWhile_cons_of_pos (by rw [inside]; rfl)], level⟩

/-! ### Groups -/

theorem group_cons (tail : Text) : group ('(' :: tail) = '(' :: groupTail 0 tail := by
  rw [group, if_pos rfl]

/-- The outer group is open from its bracket on to the end of the lexeme. -/
private theorem count_lt_of_group (starts : before <+: group ('(' :: rest)) (nonempty : before ≠ [])
    (notAll : before ≠ group ('(' :: rest)) : before.count ')' < before.count '(' := by
  rw [group_cons] at starts notAll
  cases before with
  | nil => exact absurd rfl nonempty
  | cons c before =>
    obtain ⟨rfl, tail⟩ := List.cons_prefix_cons.1 starts
    have level := level_groupTail tail fun all ↦ notAll (all ▸ rfl)
    rw [List.count_cons_of_ne (by decide), List.count_cons_self]
    omega

/-- The lexeme has no angle bracket and closes the outer group, or it ends in front of an angle
bracket or at the end of the text and leaves the outer group open. -/
private theorem group_cases (rest : Text) :
    (∀ c ∈ group ('(' :: rest), isAngle c = false) ∧
      (group ('(' :: rest)).count ')' = (group ('(' :: rest)).count '(' ∨
    group ('(' :: rest) = ('(' :: rest).takeWhile (!isAngle ·) ∧
      (group ('(' :: rest)).count ')' < (group ('(' :: rest)).count '(' := by
  rw [group_cons, List.count_cons_of_ne (by decide), List.count_cons_self,
    List.takeWhile_cons_of_pos rfl]
  rcases groupTail_cases 0 rest with ⟨free, closed⟩ | ⟨all, level⟩
  · exact .inl ⟨List.forall_mem_cons.2 ⟨rfl, free⟩, closed⟩
  · exact .inr ⟨congrArg _ all, by omega⟩

/-- Nothing that is shorter than the lexeme is a group. -/
private theorem not_isGroup_of_group (starts : before <+: group ('(' :: rest))
    (notAll : before ≠ group ('(' :: rest)) : ¬ IsGroup before := by
  intro isGroup
  refine Nat.ne_of_lt (count_lt_of_group starts ?_ notAll) isGroup.closes
  rintro rfl
  cases isGroup.opens

/-- What is read of a text that opens a group is all of the group if that is closed in front of any
angle bracket, and everything up to the first of them otherwise. The groups that are open are
counted without an underflow, and nothing shorter than what is read is a group. -/
theorem readsGroup_group (tail : Text) : ReadsGroup ('(' :: tail) (group ('(' :: tail)) where
  counted := by
    rw [group_cons, countedGroup, if_neg (by decide), if_pos rfl, countedGroup_succ,
      Option.map_some]
  nonempty := by
    rw [group_cons]
    exact List.cons_ne_nil _ _
  starts := isPrefix_group _
  shortest _ := not_isGroup_of_group
  ends := by
    rcases group_cases tail with ⟨free, closed⟩ | ⟨all, opened⟩
    · refine .inl ⟨⟨rfl, fun before starts ↦ ?_, closed⟩, free⟩
      by_cases isAll : before = group ('(' :: tail)
      · exact isAll ▸ Nat.le_of_eq closed
      · by_cases isNil : before = []
        · rw [isNil]
          exact Nat.le_refl 0
        · exact Nat.le_of_lt (count_lt_of_group starts isNil isAll)
    · refine .inr ⟨all, fun before starts isGroup ↦ ?_⟩
      -- A group without angle brackets would begin the lexeme, which leaves its first group open.
      refine Decidable.byContradiction fun none ↦ ?_
      have free : ∀ c ∈ before, (!isAngle c) = true := by
        intro c mem
        rw [Bool.not_eq_true', Bool.eq_false_iff]
        exact fun angle ↦ none ⟨c, mem, angle⟩
      have begins : before <+: group ('(' :: tail) := by
        obtain ⟨behind, split⟩ := starts
        rw [all, ← split, List.takeWhile_append_of_pos free]
        exact List.prefix_append before _
      by_cases isAll : before = group ('(' :: tail)
      · exact Nat.ne_of_lt opened (isAll ▸ isGroup.closes)
      · exact not_isGroup_of_group begins isAll isGroup

end TolerantXml.Lexeme
