import TolerantXml.Proofs.Text.Positions
import TolerantXml.Proofs.Tree.MirrorTokens

/-!
# Lines of a text inside another one

Text without line breaks, in front of another text and behind it, leaves its lines as they are:
whether two places stand in one line is told as in the text on its own (`Text.sameLine_append`).
Two places stand in one line if there is no line break between them (`Text.sameLine_iff`).
-/

namespace TolerantXml.Text

variable {before text behind : Text} {stop offset : Nat}

/-- Whether a text is a part of one line. -/
def IsUnbroken (text : Text) : Prop := ∀ c ∈ text, c ≠ '\r' ∧ c ≠ '\n'

private theorem IsUnbroken.of_cons {c : Char} (h : IsUnbroken (c :: text)) :
    (c ≠ '\r' ∧ c ≠ '\n') ∧ IsUnbroken text :=
  ⟨h c List.mem_cons_self, fun d mem ↦ h d (List.mem_cons_of_mem c mem)⟩

theorem breakEndsFrom_cons {c : Char} (isBreakFree : c ≠ '\r' ∧ c ≠ '\n') (offset : Nat)
    (text : Text) :
    breakEndsFrom offset (c :: text) = breakEndsFrom (offset + c.utf8Size) text := by
  rw [breakEndsFrom, if_neg]
  · exact fun isBreak ↦ isBreak.elim isBreakFree.1 isBreakFree.2
  · exact fun _ isReturn _ ↦ isBreakFree.1 isReturn

private theorem breakEndsFrom_unbroken (h : IsUnbroken text) (offset : Nat) :
    breakEndsFrom offset text = [] := by
  induction text generalizing offset with
  | nil => rfl
  | cons c text ih =>
    obtain ⟨isBreakFree, rest⟩ := h.of_cons
    rw [breakEndsFrom_cons isBreakFree, ih rest]

private theorem breakEndsFrom_append_left (h : IsUnbroken before) (offset : Nat) (text : Text) :
    breakEndsFrom offset (before ++ text) = breakEndsFrom (offset + before.byteSize) text := by
  induction before generalizing offset with
  | nil => rfl
  | cons c before ih =>
    obtain ⟨isBreakFree, rest⟩ := h.of_cons
    rw [List.cons_append, breakEndsFrom_cons isBreakFree, ih rest, byteSize_cons, Nat.add_assoc]

private theorem breakEndsFrom_append_right (h : IsUnbroken behind) (offset : Nat) (text : Text) :
    breakEndsFrom offset (text ++ behind) = breakEndsFrom offset text := by
  fun_induction breakEndsFrom offset text with
  | case1 offset => exact breakEndsFrom_unbroken h offset
  | case2 offset rest ih => rw [List.cons_append, List.cons_append, breakEndsFrom, ih]
  | case3 offset c rest notPair isBreak ih =>
    rw [List.cons_append, breakEndsFrom, if_pos isBreak, ih]
    -- A line feed behind a carriage return is not part of the text that comes behind.
    intro tail isReturn isPair
    cases rest with
    | nil =>
      rw [List.nil_append] at isPair
      exact (h '\n' (isPair ▸ List.mem_cons_self)).2 rfl
    | cons d rest =>
      obtain ⟨rfl, -⟩ := List.cons.inj isPair
      exact notPair rest isReturn rfl
  | case4 offset c rest notPair notBreak ih =>
    rw [List.cons_append, breakEndsFrom_cons (not_or.1 notBreak), ih]

private theorem breakEndsFrom_add (distance offset : Nat) (text : Text) :
    breakEndsFrom (offset + distance) text = (breakEndsFrom offset text).map (· + distance) := by
  fun_induction breakEndsFrom offset text with
  | case1 => rfl
  | case2 offset rest ih =>
    rw [breakEndsFrom, List.map_cons, ← ih, Nat.add_right_comm]
  | case3 offset c rest notPair isBreak ih =>
    rw [breakEndsFrom, if_pos isBreak, List.map_cons, ← ih, Nat.add_right_comm]
    exact notPair
  | case4 offset c rest notPair notBreak ih =>
    rw [breakEndsFrom_cons (not_or.1 notBreak), ← ih, Nat.add_right_comm]

theorem lineStarts_append (first : IsUnbroken before) (last : IsUnbroken behind) :
    (before ++ text ++ behind).lineStarts =
      0 :: (breakEndsFrom 0 text).map (· + before.byteSize) := by
  rw [lineStarts, breakEndsFrom_append_right last, breakEndsFrom_append_left first,
    breakEndsFrom_add]

/-- The line of a place. -/
theorem line_append (first : IsUnbroken before) (last : IsUnbroken behind) (offset : Nat) :
    ((before ++ text ++ behind).lineStarts.takeWhile (· ≤ offset + before.byteSize)).length =
      (text.lineStarts.takeWhile (· ≤ offset)).length := by
  have moved : ((fun place ↦ decide (place ≤ offset + before.byteSize)) ∘
      fun place ↦ place + before.byteSize) = fun place ↦ decide (place ≤ offset) := by
    ext place
    simp
  rw [lineStarts_append first last, lineStarts, List.takeWhile_cons_of_pos (by simp),
    List.takeWhile_cons_of_pos (by simp), List.takeWhile_map, List.length_cons, List.length_map,
    moved, List.length_cons]

/-- Places in one line stay in one line. -/
theorem sameLine_append (first : IsUnbroken before) (last : IsUnbroken behind)
    (inside : offset ≤ text.byteSize) (stop : Nat) :
    (before ++ text ++ behind).sameLine (stop + before.byteSize) (offset + before.byteSize) =
      text.sameLine stop offset := by
  by_cases le : stop ≤ offset
  · have far : ¬ (before ++ text ++ behind).byteSize < offset + before.byteSize := by
      rw [byteSize_append, byteSize_append]
      omega
    have far' : ¬ (before ++ text ++ behind).byteSize < stop + before.byteSize := by omega
    simp only [sameLine, positionAt, if_neg far, if_neg far', if_neg (Nat.not_lt_of_le inside),
      if_neg (Nat.not_lt_of_le (Nat.le_trans le inside)), line_append first last,
      Nat.add_le_add_iff_right]
  · have notBefore : ∀ (source : Text) (stop offset : Nat), ¬ stop ≤ offset →
        source.sameLine stop offset = false := by
      intro source stop offset notLe
      rw [sameLine]
      split
      · rw [decide_eq_false notLe, Bool.false_and]
      · rfl
    rw [notBefore _ _ _ le, notBefore]
    omega

/-! ### Places in one line -/

variable {first gap last : Text}

/-- A text without line breaks is one in which no line ends. -/
private theorem isUnbroken_iff (offset : Nat) :
    IsUnbroken text ↔ breakEndsFrom offset text = [] := by
  refine ⟨fun unbroken ↦ breakEndsFrom_unbroken unbroken offset, fun none ↦ ?_⟩
  fun_induction breakEndsFrom offset text with
  | case1 => exact List.forall_mem_nil _
  | case2 | case3 => cases none
  | case4 offset c rest _ notBreak ih =>
    exact List.forall_mem_cons.2 ⟨not_or.1 notBreak, ih none⟩

/-- A cut between two texts leaves the line breaks whole, unless it divides a pair. -/
theorem breakEndsFrom_append (offset : Nat)
    (whole : ¬ (first.getLast? = some '\r' ∧ last.head? = some '\n')) :
    breakEndsFrom offset (first ++ last) =
      breakEndsFrom offset first ++ breakEndsFrom (offset + first.byteSize) last := by
  have behind {c : Char} {rest : Text}
      (whole : ¬ ((c :: rest).getLast? = some '\r' ∧ last.head? = some '\n')) :
      ¬ (rest.getLast? = some '\r' ∧ last.head? = some '\n') := by
    rintro ⟨isReturn, isFeed⟩
    exact whole ⟨by rw [List.getLast?_cons, isReturn]; rfl, isFeed⟩
  fun_induction breakEndsFrom offset first with
  | case1 offset => rfl
  | case2 offset rest ih =>
    have size : byteSize ('\r' :: '\n' :: rest) = 2 + byteSize rest := by
      rw [byteSize_cons, byteSize_cons, ← Nat.add_assoc]
      rfl
    rw [List.cons_append, List.cons_append, breakEndsFrom, ih (behind (behind whole)), size,
      List.cons_append, Nat.add_assoc]
  | case3 offset c rest notPair isBreak ih =>
    have size : byteSize (c :: rest) = 1 + byteSize rest := by
      rw [byteSize_cons]
      rcases isBreak with rfl | rfl <;> rfl
    rw [List.cons_append, breakEndsFrom, if_pos isBreak, ih (behind whole), size, List.cons_append,
      Nat.add_assoc]
    -- A line feed at the start of the second text is not the one of a pair.
    rintro tail rfl isPair
    cases rest with
    | nil => exact whole ⟨rfl, by rw [List.nil_append] at isPair; rw [isPair]; rfl⟩
    | cons d rest =>
      obtain ⟨rfl, -⟩ := List.cons.inj isPair
      exact notPair rest rfl rfl
  | case4 offset c rest _ notBreak ih =>
    rw [List.cons_append, breakEndsFrom_cons (not_or.1 notBreak), ih (behind whole), byteSize_cons,
      Nat.add_assoc]

/-- The lines that start at or before a cut are those of the text before it. -/
theorem started_append (whole : ¬ (first.getLast? = some '\r' ∧ last.head? = some '\n')) :
    (first ++ last).lineStarts.takeWhile (· ≤ first.byteSize) = first.lineStarts := by
  have started : ∀ place ∈ first.lineStarts, decide (place ≤ first.byteSize) = true := by
    intro place mem
    exact decide_eq_true (le_byteSize_of_mem_lineStarts mem)
  have notStarted : (breakEndsFrom (0 + first.byteSize) last).takeWhile
      (· ≤ first.byteSize) = [] := by
    refine List.takeWhile_eq_nil_iff.2 fun inside isStarted ↦ ?_
    have behind := (bounds_of_mem_breakEndsFrom (List.get_mem _ ⟨0, inside⟩)).1
    rw [decide_eq_true_eq] at isStarted
    omega
  rw [lineStarts, breakEndsFrom_append 0 whole, ← List.cons_append, ← lineStarts,
    List.takeWhile_append_of_pos started, notStarted, List.append_nil]

/-- Two places stand in one line if there is no line break between them. -/
theorem sameLine_iff (behindFirst : first.getLast? ≠ some '\r')
    (beforeLast : last.head? ≠ some '\n') :
    (first ++ gap ++ last).sameLine first.byteSize (first ++ gap).byteSize = true ↔
      gap.IsUnbroken := by
  have before : ¬ (first ++ gap ++ last).byteSize < first.byteSize := by
    rw [List.append_assoc, byteSize_append]
    omega
  have before' : ¬ (first ++ gap ++ last).byteSize < (first ++ gap).byteSize := by
    rw [byteSize_append _ last]
    omega
  have started : (first ++ gap ++ last).lineStarts.takeWhile (· ≤ first.byteSize) =
      first.lineStarts := by
    rw [List.append_assoc]
    exact started_append fun isPair ↦ behindFirst isPair.1
  have started' : (first ++ gap ++ last).lineStarts.takeWhile (· ≤ (first ++ gap).byteSize) =
      (first ++ gap).lineStarts :=
    started_append fun isPair ↦ beforeLast isPair.2
  have lines : (first ++ gap).lineStarts =
      first.lineStarts ++ breakEndsFrom (0 + first.byteSize) gap := by
    rw [lineStarts, breakEndsFrom_append 0 fun isPair ↦ behindFirst isPair.1]
    rfl
  have le : first.byteSize ≤ (first ++ gap).byteSize := by
    rw [byteSize_append]
    omega
  simp only [sameLine, positionAt, if_neg before, if_neg before', started, started',
    decide_eq_true le, Bool.true_and, beq_iff_eq]
  rw [isUnbroken_iff (0 + first.byteSize), ← List.length_eq_zero_iff, lines, List.length_append]
  have positive : 0 < first.lineStarts.length := Nat.succ_pos _
  omega

end TolerantXml.Text
