import Mathlib.Data.List.TakeWhile
import TolerantXml.Position

/-!
# Offsets and positions

The starts of the lines of a text rise from zero and lie in the text, so every offset in the text
stands in one line (`InLine`). A position belongs to an offset if its line is that one and its
character the distance from the start, and both conversions tell just that
(`positionAt_eq_ok_iff`, `offsetAt_eq_ok_iff`). So they undo each other
(`positions_and_offsets_exact`).
-/

namespace TolerantXml

/-- The order of positions: by line, and in one line by character. -/
def Position.Before (first second : Position) : Prop :=
  first.line < second.line ∨ first.line = second.line ∧ first.character < second.character

namespace Text

variable {text : Text} {line start offset : Nat}

/-! ### The starts of lines -/

/-- A line break ends behind the place where the text was read from, and in the text. -/
theorem bounds_of_mem_breakEndsFrom {offset place : Nat} {text : Text}
    (mem : place ∈ breakEndsFrom offset text) :
    offset < place ∧ place ≤ offset + text.byteSize := by
  fun_induction breakEndsFrom offset text with
  | case1 => cases mem
  | case2 offset rest ih =>
    have size : byteSize ('\r' :: '\n' :: rest) = byteSize rest + 2 := by
      rw [byteSize_cons, byteSize_cons, ← Nat.add_assoc]
      exact Nat.add_comm _ _
    rcases List.mem_cons.1 mem with rfl | mem
    · omega
    · have := ih mem
      omega
  | case3 offset c rest _ isBreak ih =>
    have size : byteSize (c :: rest) = byteSize rest + 1 := by
      rw [byteSize_cons]
      rcases isBreak with rfl | rfl
      · exact Nat.add_comm _ _
      · exact Nat.add_comm _ _
    rcases List.mem_cons.1 mem with rfl | mem
    · omega
    · have := ih mem
      omega
  | case4 offset c rest _ _ ih =>
    have := ih mem
    have := c.utf8Size_pos
    rw [byteSize_cons]
    omega

private theorem pairwise_breakEndsFrom (offset : Nat) (text : Text) :
    (breakEndsFrom offset text).Pairwise (· < ·) := by
  fun_induction breakEndsFrom offset text with
  | case1 => exact .nil
  | case2 offset rest ih | case3 offset _ rest _ _ ih =>
    exact List.pairwise_cons.2 ⟨fun place mem ↦ (bounds_of_mem_breakEndsFrom mem).1, ih⟩
  | case4 offset c rest _ _ ih => exact ih

theorem pairwise_lineStarts (text : Text) : text.lineStarts.Pairwise (· < ·) :=
  List.pairwise_cons.2
    ⟨fun _ mem ↦ (bounds_of_mem_breakEndsFrom mem).1, pairwise_breakEndsFrom 0 text⟩

theorem le_byteSize_of_mem_lineStarts (mem : start ∈ text.lineStarts) :
    start ≤ text.byteSize := by
  rcases List.mem_cons.1 mem with rfl | mem
  · exact Nat.zero_le _
  · have := (bounds_of_mem_breakEndsFrom mem).2
    omega

/-- A line starts before the lines behind it. -/
private theorem lineStarts_lt {line line' start start' : Nat} (less : line < line')
    (isStart : text.lineStarts[line]? = some start)
    (isStart' : text.lineStarts[line']? = some start') : start < start' := by
  obtain ⟨lt, rfl⟩ := List.getElem?_eq_some_iff.1 isStart
  obtain ⟨lt', rfl⟩ := List.getElem?_eq_some_iff.1 isStart'
  exact List.pairwise_iff_getElem.1 text.pairwise_lineStarts line line' lt lt' less

/-! ### The line of an offset -/

/-- An offset in the text stands in a line: not before its start, and before the next line. -/
structure InLine (text : Text) (line start offset : Nat) : Prop where
  isStart : text.lineStarts[line]? = some start
  start_le : start ≤ offset
  lt_next : ∀ next, text.lineStarts[line + 1]? = some next → offset < next
  le_size : offset ≤ text.byteSize

/-- Offsets stand in lines in their order. -/
private theorem InLine.line_le {line line' start start' offset offset' : Nat}
    (first : text.InLine line start offset) (second : text.InLine line' start' offset')
    (le : offset ≤ offset') : line ≤ line' := by
  by_contra less
  obtain ⟨lt, -⟩ := List.getElem?_eq_some_iff.1 first.isStart
  have next := List.getElem?_eq_getElem (l := text.lineStarts) (i := line' + 1) (by omega)
  have beforeNext := second.lt_next _ next
  rcases Nat.lt_or_ge (line' + 1) line with further | ge
  · have := lineStarts_lt further next first.isStart
    have := first.start_le
    omega
  · obtain rfl : line = line' + 1 := by omega
    have same := first.isStart
    rw [next, Option.some.injEq] at same
    have := first.start_le
    omega

/-- The lines that start at or before an offset in the text are the first ones, and the last of
them is the line of the offset. -/
private theorem inLine_started (le : offset ≤ text.byteSize) :
    0 < (text.lineStarts.takeWhile (· ≤ offset)).length ∧
      text.InLine ((text.lineStarts.takeWhile (· ≤ offset)).length - 1)
        ((text.lineStarts.takeWhile (· ≤ offset)).getLastD 0) offset := by
  have notNone : text.lineStarts.takeWhile (· ≤ offset) ≠ [] := by
    rw [lineStarts, List.takeWhile_cons_of_pos (by simp)]
    exact List.cons_ne_nil _ _
  have split := List.takeWhile_append_dropWhile (p := (· ≤ offset)) (l := text.lineStarts)
  have started : ∀ place ∈ text.lineStarts.takeWhile (· ≤ offset), place ≤ offset := by
    intro place mem
    simpa using List.mem_takeWhile_imp mem
  have notStarted : ∀ place, (text.lineStarts.dropWhile (· ≤ offset)).head? = some place →
      offset < place := by
    intro place isHead
    have := List.head?_dropWhile_not (fun place ↦ decide (place ≤ offset)) text.lineStarts
    rw [isHead] at this
    simpa using this
  generalize text.lineStarts.takeWhile (· ≤ offset) = before at notNone split started ⊢
  generalize text.lineStarts.dropWhile (· ≤ offset) = behind at split notStarted
  obtain rfl | ⟨others, last, rfl⟩ := List.eq_nil_or_concat before
  · exact absurd rfl notNone
  rw [List.concat_eq_append] at split started ⊢
  rw [List.length_append, List.length_singleton, Nat.add_sub_cancel, List.getLastD_concat]
  refine ⟨Nat.succ_pos _, ?_, started last (by simp), ?_, le⟩
  · rw [← split]
    simp
  · intro next isNext
    rw [← split, List.getElem?_append_right (by simp)] at isNext
    exact notStarted next (by simpa [List.head?_eq_getElem?] using isNext)

/-- An offset has a position if it lies in the text: its line, and its distance from the start of
the line. -/
theorem positionAt_eq_ok_iff {position : Position} :
    text.positionAt offset = .ok position ↔
      ∃ start, text.InLine position.line start offset ∧ offset = start + position.character := by
  rw [positionAt]
  split
  next past =>
    constructor
    · intro isOk
      cases isOk
    · rintro ⟨start, inLine, -⟩
      exact absurd inLine.le_size (Nat.not_le_of_lt past)
  next inside =>
    obtain ⟨-, inLine⟩ := inLine_started (Nat.le_of_not_lt inside)
    rw [Except.ok.injEq]
    constructor
    · rintro rfl
      exact ⟨_, inLine, (Nat.add_sub_cancel' inLine.start_le).symm⟩
    · rintro ⟨start, inLine', isOffset⟩
      have line := Nat.le_antisymm (inLine.line_le inLine' le_rfl) (inLine'.line_le inLine le_rfl)
      have isStart := inLine.isStart
      rw [line, inLine'.isStart, Option.some.injEq] at isStart
      rw [line, ← isStart, isOffset, Nat.add_sub_cancel_left]

/-! ### The length of a line -/

/-- The length of a line that starts at `start`, up to the last byte of its line break. -/
def lineLength (text : Text) (line start : Nat) : Nat :=
  match text.lineStarts[line + 1]? with
  | some next => next - start - 1
  | none => text.byteSize - start

private theorem offsetAt_of_isStart {position : Position}
    (isStart : text.lineStarts[position.line]? = some start) :
    text.offsetAt position =
      if text.lineLength position.line start < position.character then
        .error (.characterOutOfRange position.line position.character
          (text.lineLength position.line start))
      else .ok (start + position.character) := by
  rw [offsetAt, isStart]
  rfl

/-- The lines that do not exist are those at and behind the number of lines. -/
theorem lineStarts_eq_none_iff : text.lineStarts[line]? = none ↔ text.lineCount ≤ line :=
  List.getElem?_eq_none_iff

private theorem offsetAt_of_lineCount_le {position : Position}
    (le : text.lineCount ≤ position.line) :
    text.offsetAt position = .error (.lineOutOfRange position.line text.lineCount) := by
  rw [offsetAt, lineStarts_eq_none_iff.2 le]
  rfl

/-- The places of a line are those up to its length. -/
private theorem inLine_iff (isStart : text.lineStarts[line]? = some start) (character : Nat) :
    text.InLine line start (start + character) ↔ character ≤ text.lineLength line start := by
  have inText := le_byteSize_of_mem_lineStarts (List.mem_of_getElem? isStart)
  rw [lineLength]
  split
  next next isNext =>
    have less := lineStarts_lt (Nat.lt_succ_self line) isStart isNext
    have nextInText := le_byteSize_of_mem_lineStarts (List.mem_of_getElem? isNext)
    constructor
    · intro inLine
      have := inLine.lt_next next isNext
      omega
    · intro le
      refine ⟨isStart, Nat.le_add_right _ _, ?_, by omega⟩
      intro next' isNext'
      rw [isNext, Option.some.injEq] at isNext'
      omega
  next isLast =>
    constructor
    · intro inLine
      have := inLine.le_size
      omega
    · intro le
      refine ⟨isStart, Nat.le_add_right _ _, ?_, by omega⟩
      intro next isNext
      rw [isLast] at isNext
      cases isNext

/-- The offset of a position is the place in its line, if the line has such a place. -/
theorem offsetAt_eq_ok_iff {position : Position} :
    text.offsetAt position = .ok offset ↔
      ∃ start, text.InLine position.line start offset ∧ offset = start + position.character := by
  constructor
  · intro isOk
    rcases isStart : text.lineStarts[position.line]? with _ | start
    · rw [offsetAt_of_lineCount_le (lineStarts_eq_none_iff.1 isStart)] at isOk
      cases isOk
    · rw [offsetAt_of_isStart isStart] at isOk
      split at isOk
      · cases isOk
      next inside =>
        cases isOk
        exact ⟨start, (inLine_iff isStart _).2 (Nat.le_of_not_lt inside), rfl⟩
  · rintro ⟨start, inLine, rfl⟩
    have le := (inLine_iff inLine.isStart _).1 inLine
    rw [offsetAt_of_isStart inLine.isStart, if_neg (Nat.not_lt_of_le le)]

/-- The two conversions tell the same. -/
theorem positionAt_eq_ok_iff_offsetAt {position : Position} :
    text.positionAt offset = .ok position ↔ text.offsetAt position = .ok offset :=
  positionAt_eq_ok_iff.trans offsetAt_eq_ok_iff.symm

/-! ### Both directions -/

/-- The number of lines that start at or before an offset. -/
def startedCount (text : Text) (offset : Nat) : Nat :=
  (text.lineStarts.takeWhile (· ≤ offset)).length

/-- The line of an offset is found, and does not start behind the offset. -/
private theorem positionAt_of_le (le : offset ≤ text.byteSize) :
    0 < text.startedCount offset ∧
      ∃ start, text.lineStarts[text.startedCount offset - 1]? = some start ∧ start ≤ offset ∧
        text.positionAt offset = .ok ⟨text.startedCount offset - 1, offset - start⟩ := by
  obtain ⟨pos, inLine⟩ := inLine_started le
  refine ⟨pos, _, inLine.isStart, inLine.start_le, positionAt_eq_ok_iff.2 ⟨_, inLine, ?_⟩⟩
  exact (Nat.add_sub_cancel' inLine.start_le).symm

theorem exists_positionAt_iff :
    (∃ position, text.positionAt offset = .ok position) ↔ offset ≤ text.byteSize := by
  constructor
  · rintro ⟨position, isOk⟩
    obtain ⟨start, inLine, -⟩ := positionAt_eq_ok_iff.1 isOk
    exact inLine.le_size
  · intro le
    obtain ⟨-, start, -, -, isOk⟩ := positionAt_of_le le
    exact ⟨_, isOk⟩

private theorem before_of_positionAt {first second : Nat} {position position' : Position}
    (less : first < second) (isFirst : text.positionAt first = .ok position)
    (isSecond : text.positionAt second = .ok position') : position.Before position' := by
  obtain ⟨start, inLine, isOffset⟩ := positionAt_eq_ok_iff.1 isFirst
  obtain ⟨start', inLine', isOffset'⟩ := positionAt_eq_ok_iff.1 isSecond
  rcases Nat.lt_or_eq_of_le (inLine.line_le inLine' (Nat.le_of_lt less)) with lineLess | sameLine
  · exact .inl lineLess
  · have isStart := inLine.isStart
    rw [sameLine, inLine'.isStart, Option.some.injEq] at isStart
    exact .inr ⟨sameLine, by omega⟩

/-- A line that exists has no place past its length, and every place up to it. -/
private theorem offsetAt_of_lt_lineCount {position : Position}
    (less : position.line < text.lineCount) :
    (∃ offset, text.offsetAt position = .ok offset) ∨
      ∃ length, length < position.character ∧ text.offsetAt position =
        .error (.characterOutOfRange position.line position.character length) := by
  have isStart : text.lineStarts[position.line]? = some _ := List.getElem?_eq_getElem less
  rw [offsetAt_of_isStart isStart]
  split
  next past => exact .inr ⟨_, past, rfl⟩
  next => exact .inl ⟨_, rfl⟩

theorem offsetAt_eq_lineOutOfRange_iff {position : Position} :
    text.offsetAt position = .error (.lineOutOfRange position.line text.lineCount) ↔
      text.lineCount ≤ position.line := by
  refine ⟨fun isError ↦ ?_, offsetAt_of_lineCount_le⟩
  by_contra less
  obtain ⟨offset, isOk⟩ | ⟨length, -, isError'⟩ :=
    offsetAt_of_lt_lineCount (Nat.lt_of_not_le less)
  · rw [isOk] at isError
    cases isError
  · rw [isError'] at isError
    cases isError

theorem offsetAt_eq_characterOutOfRange_iff {position : Position} :
    (∃ length, length < position.character ∧ text.offsetAt position =
        .error (.characterOutOfRange position.line position.character length)) ↔
      position.line < text.lineCount ∧ ∀ offset, text.positionAt offset ≠ .ok position := by
  constructor
  · rintro ⟨length, -, isError⟩
    constructor
    · by_contra le
      rw [offsetAt_of_lineCount_le (Nat.le_of_not_lt le)] at isError
      cases isError
    · intro offset isOk
      rw [positionAt_eq_ok_iff_offsetAt.1 isOk] at isError
      cases isError
  · rintro ⟨less, notOk⟩
    obtain ⟨offset, isOk⟩ | isError := offsetAt_of_lt_lineCount less
    · exact absurd (positionAt_eq_ok_iff_offsetAt.2 isOk) (notOk offset)
    · exact isError

/-- Offsets and positions are exact inverses. The offsets of a text are those up to its length,
their positions rise with them, and lead back to them. A position leads to an offset only if it is
the position of that offset; any other one is an error that tells whether the line exists. Nothing
is looked up that does not exist, and nothing subtracted from less: a line starts in the text and
before the next line, and an offset not before its line. -/
theorem positions_and_offsets_exact (text : Text) :
    (∀ offset, (∃ position, text.positionAt offset = .ok position) ↔ offset ≤ text.byteSize) ∧
    (∀ first second position position', first < second →
      text.positionAt first = .ok position → text.positionAt second = .ok position' →
      position.Before position') ∧
    (∀ offset, offset ≤ text.byteSize →
      (text.positionAt offset).bind text.offsetAt = .ok offset) ∧
    (∀ position offset, text.offsetAt position = .ok offset →
      text.positionAt offset = .ok position) ∧
    (∀ position, text.offsetAt position = .error (.lineOutOfRange position.line text.lineCount) ↔
      text.lineCount ≤ position.line) ∧
    (∀ position, (∃ length, length < position.character ∧ text.offsetAt position =
        .error (.characterOutOfRange position.line position.character length)) ↔
      position.line < text.lineCount ∧ ∀ offset, text.positionAt offset ≠ .ok position) ∧
    (∀ line start, text.lineStarts[line]? = some start → start ≤ text.byteSize ∧
      ∀ next, text.lineStarts[line + 1]? = some next → start + 1 ≤ next) ∧
    (∀ offset, offset ≤ text.byteSize → 0 < text.startedCount offset ∧
      ∃ start, text.lineStarts[text.startedCount offset - 1]? = some start ∧ start ≤ offset ∧
        text.positionAt offset = .ok ⟨text.startedCount offset - 1, offset - start⟩) := by
  refine ⟨fun _ ↦ exists_positionAt_iff, fun _ _ _ _ ↦ before_of_positionAt, ?_,
    fun _ _ ↦ positionAt_eq_ok_iff_offsetAt.2, fun _ ↦ offsetAt_eq_lineOutOfRange_iff,
    fun _ ↦ offsetAt_eq_characterOutOfRange_iff, ?_, fun _ ↦ positionAt_of_le⟩
  · intro offset le
    obtain ⟨position, isOk⟩ := exists_positionAt_iff.2 le
    rw [isOk]
    exact positionAt_eq_ok_iff_offsetAt.1 isOk
  · intro line start isStart
    refine ⟨le_byteSize_of_mem_lineStarts (List.mem_of_getElem? isStart), ?_⟩
    exact fun next isNext ↦ lineStarts_lt (Nat.lt_succ_self line) isStart isNext

end Text

end TolerantXml
