import TolerantXml.Proofs.Text.Lines

/-!
# Line breaks

A line break is a line feed, a carriage return, or one of each in that order, which is one break
and not two (`Text.LineBreak`). Positions count them: the line of an offset is the number of line
breaks that end at or before it, its character the distance from the end of the last of them, and
a text has one line more than line breaks (`Text.positionAt_lineBreaks`).
-/

namespace TolerantXml.Text

variable {before behind text : Text} {span : Span} {offset : Nat}

/-- What is a line break, between what stands before it and what stands behind it. A line feed
behind a carriage return is no break of its own, and neither is the carriage return. -/
inductive LineBreak : (before part behind : Text) → Prop
  | lineFeed {before behind : Text} (alone : before.getLast? ≠ some '\r') :
    LineBreak before ['\n'] behind
  | pair {before behind : Text} : LineBreak before ['\r', '\n'] behind
  | carriageReturn {before behind : Text} (alone : behind.head? ≠ some '\n') :
    LineBreak before ['\r'] behind

/-- A span of a text that is a line break in it. -/
def IsLineBreak (text : Text) (span : Span) : Prop :=
  ∃ before part behind, text = before ++ part ++ behind ∧ LineBreak before part behind ∧
    span = ⟨before.byteSize, (before ++ part).byteSize⟩

/-- The line breaks of a text that starts at `offset`, in their order. -/
def lineBreaksFrom (offset : Nat) : Text → List Span
  | [] => []
  | '\r' :: '\n' :: rest => ⟨offset, offset + 2⟩ :: lineBreaksFrom (offset + 2) rest
  | c :: rest =>
    if c = '\r' ∨ c = '\n' then ⟨offset, offset + 1⟩ :: lineBreaksFrom (offset + 1) rest
    else lineBreaksFrom (offset + c.utf8Size) rest

/-- The line breaks of a text, in their order. -/
def lineBreaks (text : Text) : List Span := lineBreaksFrom 0 text

/-! ### The list of line breaks -/

private theorem map_stop_lineBreaksFrom (offset : Nat) (text : Text) :
    (lineBreaksFrom offset text).map Span.stop = breakEndsFrom offset text := by
  fun_induction lineBreaksFrom offset text with
  | case1 => rfl
  | case2 offset rest ih => rw [List.map_cons, ih, breakEndsFrom]
  | case3 offset c rest notPair isBreak ih =>
    rw [List.map_cons, ih, breakEndsFrom, if_pos isBreak]
    exact notPair
  | case4 offset c rest notPair notBreak ih => rw [ih, breakEndsFrom_cons (not_or.1 notBreak)]

/-- The lines behind the first one start where the line breaks end. -/
private theorem lineStarts_eq (text : Text) :
    text.lineStarts = 0 :: text.lineBreaks.map Span.stop := by
  rw [lineStarts, lineBreaks, map_stop_lineBreaksFrom]

private theorem start_le_of_mem_lineBreaksFrom (mem : span ∈ lineBreaksFrom offset text) :
    offset ≤ span.start := by
  fun_induction lineBreaksFrom offset text with
  | case1 => cases mem
  | case2 offset rest ih | case3 offset _ rest _ _ ih =>
    rcases List.mem_cons.1 mem with rfl | mem
    · exact Nat.le_refl _
    · have := ih mem
      omega
  | case4 offset c rest _ _ ih =>
    have := ih mem
    omega

private theorem pairwise_lineBreaksFrom (offset : Nat) (text : Text) :
    (lineBreaksFrom offset text).Pairwise (fun first second ↦ first.stop ≤ second.start) := by
  fun_induction lineBreaksFrom offset text with
  | case1 => exact .nil
  | case2 offset rest ih | case3 offset _ rest _ _ ih =>
    exact List.pairwise_cons.2 ⟨fun span mem ↦ start_le_of_mem_lineBreaksFrom mem, ih⟩
  | case4 offset c rest _ _ ih => exact ih

/-! ### The breaks of the rest of a text -/

/-- A span that is a line break in the text behind `before`. -/
def BreaksBehind (before text : Text) (span : Span) : Prop :=
  ∃ gap part behind, text = gap ++ part ++ behind ∧ LineBreak (before ++ gap) part behind ∧
    span = ⟨(before ++ gap).byteSize, (before ++ gap ++ part).byteSize⟩

/-- A span that is a line break right behind `before`. -/
def BreaksNext (before text : Text) (span : Span) : Prop :=
  ∃ part behind, text = part ++ behind ∧ LineBreak before part behind ∧
    span = ⟨before.byteSize, (before ++ part).byteSize⟩

private theorem not_breaksBehind_nil : ¬ BreaksBehind before [] span := by
  rintro ⟨gap, part, behind, isText, isBreak, -⟩
  obtain ⟨isNil, -⟩ := List.append_eq_nil_iff.1 isText.symm
  obtain ⟨-, rfl⟩ := List.append_eq_nil_iff.1 isNil
  cases isBreak

/-- A line break stands right here, or behind the next character. -/
private theorem breaksBehind_cons_iff {c : Char} {rest : Text} :
    BreaksBehind before (c :: rest) span ↔
      BreaksNext before (c :: rest) span ∨ BreaksBehind (before ++ [c]) rest span := by
  constructor
  · rintro ⟨gap, part, behind, isText, isBreak, isSpan⟩
    cases gap with
    | nil =>
      rw [List.append_nil] at isBreak isSpan
      exact .inl ⟨part, behind, isText, isBreak, isSpan⟩
    | cons d gap =>
      obtain ⟨rfl, rfl⟩ := List.cons.inj isText
      rw [List.append_cons] at isBreak isSpan
      exact .inr ⟨gap, part, behind, rfl, isBreak, isSpan⟩
  · rintro (⟨part, behind, isText, isBreak, isSpan⟩ | ⟨gap, part, behind, rfl, isBreak, isSpan⟩)
    · refine ⟨[], part, behind, isText, ?_⟩
      rw [List.append_nil]
      exact ⟨isBreak, isSpan⟩
    · refine ⟨c :: gap, part, behind, rfl, ?_⟩
      rw [List.append_cons]
      exact ⟨isBreak, isSpan⟩

/-- A pair is the one break that starts with its carriage return. -/
private theorem breaksNext_pair_iff {rest : Text} :
    BreaksNext before ('\r' :: '\n' :: rest) span ↔
      span = ⟨before.byteSize, before.byteSize + 2⟩ := by
  constructor
  · rintro ⟨part, behind, isText, isBreak, rfl⟩
    cases isBreak with
    | lineFeed => cases isText
    | pair => rw [byteSize_append]; rfl
    | carriageReturn alone =>
      obtain ⟨-, rfl⟩ := List.cons.inj isText
      exact absurd rfl alone
  · rintro rfl
    refine ⟨['\r', '\n'], rest, rfl, .pair, ?_⟩
    rw [byteSize_append]
    rfl

/-- The line feed of a pair is no break of its own. -/
private theorem not_breaksNext_of_pair {text : Text} :
    ¬ BreaksNext (before ++ ['\r']) ('\n' :: text) span := by
  rintro ⟨part, behind, isText, isBreak, -⟩
  cases isBreak with
  | lineFeed alone => exact alone (List.getLast?_concat ..)
  | pair | carriageReturn => cases isText

/-- A carriage return or line feed that is not in a pair is a break. -/
private theorem breaksNext_iff {c : Char} {rest : Text} (isBreak : c = '\r' ∨ c = '\n')
    (first : ¬ (before.getLast? = some '\r' ∧ c = '\n'))
    (last : ¬ (c = '\r' ∧ rest.head? = some '\n')) :
    BreaksNext before (c :: rest) span ↔ span = ⟨before.byteSize, before.byteSize + 1⟩ := by
  constructor
  · rintro ⟨part, behind, isText, isBreak, rfl⟩
    cases isBreak with
    | pair =>
      obtain ⟨rfl, rfl⟩ := List.cons.inj isText
      exact absurd ⟨rfl, rfl⟩ last
    | lineFeed | carriageReturn => rw [byteSize_append]; rfl
  · rintro rfl
    rcases isBreak with rfl | rfl
    · refine ⟨['\r'], rest, rfl, .carriageReturn fun isFeed ↦ last ⟨rfl, isFeed⟩, ?_⟩
      rw [byteSize_append]
      rfl
    · refine ⟨['\n'], rest, rfl, .lineFeed fun isReturn ↦ first ⟨isReturn, rfl⟩, ?_⟩
      rw [byteSize_append]
      rfl

private theorem not_breaksNext {c : Char} {rest : Text} (notBreak : ¬ (c = '\r' ∨ c = '\n')) :
    ¬ BreaksNext before (c :: rest) span := by
  rintro ⟨part, behind, isText, isBreak, -⟩
  cases isBreak with
  | lineFeed => exact notBreak (.inr (List.cons.inj isText).1)
  | pair | carriageReturn => exact notBreak (.inl (List.cons.inj isText).1)

/-- The list holds the line breaks behind a cut that divides no pair. -/
theorem mem_lineBreaksFrom_iff
    (whole : ¬ (before.getLast? = some '\r' ∧ text.head? = some '\n')) :
    span ∈ lineBreaksFrom before.byteSize text ↔ BreaksBehind before text span := by
  generalize isOffset : before.byteSize = offset
  fun_induction lineBreaksFrom offset text generalizing before with
  | case1 => exact iff_of_false List.not_mem_nil not_breaksBehind_nil
  | case2 offset rest ih =>
    have whole' : ¬ ((before ++ ['\r'] ++ ['\n']).getLast? = some '\r' ∧
        rest.head? = some '\n') := by
      rw [List.getLast?_concat]
      exact fun isPair ↦ absurd isPair.1 (by decide)
    have size : (before ++ ['\r'] ++ ['\n']).byteSize = offset + 2 := by
      rw [byteSize_append, byteSize_append, isOffset]
      rfl
    rw [List.mem_cons, ih whole' size, breaksBehind_cons_iff, breaksNext_pair_iff,
      breaksBehind_cons_iff, or_iff_right not_breaksNext_of_pair, isOffset]
  | case3 offset c rest notPair isBreak ih =>
    have last : ¬ (c = '\r' ∧ rest.head? = some '\n') := by
      rintro ⟨rfl, isFeed⟩
      obtain ⟨tail, rfl⟩ := List.head?_eq_some_iff.1 isFeed
      exact notPair tail rfl rfl
    have whole' : ¬ ((before ++ [c]).getLast? = some '\r' ∧ rest.head? = some '\n') := by
      rw [List.getLast?_concat, Option.some.injEq]
      exact last
    have size : (before ++ [c]).byteSize = offset + 1 := by
      rw [byteSize_append, isOffset]
      rcases isBreak with rfl | rfl <;> rfl
    have first : ¬ (before.getLast? = some '\r' ∧ c = '\n') := by
      rintro ⟨isReturn, rfl⟩
      exact whole ⟨isReturn, rfl⟩
    rw [List.mem_cons, ih whole' size, breaksBehind_cons_iff, breaksNext_iff isBreak first last,
      isOffset]
  | case4 offset c rest _ notBreak ih =>
    have whole' : ¬ ((before ++ [c]).getLast? = some '\r' ∧ rest.head? = some '\n') := by
      rw [List.getLast?_concat, Option.some.injEq]
      exact fun isPair ↦ notBreak (.inl isPair.1)
    have size : (before ++ [c]).byteSize = offset + c.utf8Size := by
      rw [byteSize_append, isOffset]
      rfl
    rw [ih whole' size, breaksBehind_cons_iff, or_iff_right (not_breaksNext notBreak)]

theorem mem_lineBreaks_iff : span ∈ text.lineBreaks ↔ text.IsLineBreak span := by
  have whole : ¬ (([] : Text).getLast? = some '\r' ∧ text.head? = some '\n') := by simp
  exact mem_lineBreaksFrom_iff whole

/-! ### Counting -/

/-- The numbers at the front of a rising list that are not above a bound are all of these. -/
private theorem takeWhile_le_eq_filter {places : List Nat} (rising : places.Pairwise (· < ·))
    (bound : Nat) : places.takeWhile (· ≤ bound) = places.filter (· ≤ bound) := by
  induction places with
  | nil => rfl
  | cons place places ih =>
    obtain ⟨above, rising⟩ := List.pairwise_cons.1 rising
    by_cases le : place ≤ bound
    · rw [List.takeWhile_cons_of_pos (by simpa using le),
        List.filter_cons_of_pos (by simpa using le), ih rising]
    · rw [List.takeWhile_cons_of_neg (by simpa using le),
        List.filter_cons_of_neg (by simpa using le)]
      refine (List.filter_eq_nil_iff.2 fun behind mem ↦ ?_).symm
      have := above behind mem
      rw [decide_eq_true_eq]
      omega

/-- The lines that start at or before an offset are the first one, and those behind the line
breaks that end at or before it. -/
private theorem started_eq (text : Text) (offset : Nat) :
    text.lineStarts.takeWhile (· ≤ offset) =
      0 :: (text.lineBreaks.filter (·.stop ≤ offset)).map Span.stop := by
  rw [takeWhile_le_eq_filter text.pairwise_lineStarts, lineStarts_eq,
    List.filter_cons_of_pos (by simp), List.filter_map]
  rfl

/-- Positions count line breaks. A text has a list of its line breaks in their order, and one line
more than these. The line of an offset in the text is the number of line breaks that end at or
before it, and its character the distance from the end of the last of them, or from the start of
the text if there is none. -/
theorem positionAt_lineBreaks (text : Text) :
    ∃ breaks : List Span, (∀ span, span ∈ breaks ↔ text.IsLineBreak span) ∧
      breaks.Pairwise (fun first second ↦ first.stop ≤ second.start) ∧
      text.lineCount = breaks.length + 1 ∧
      ∀ offset, offset ≤ text.byteSize →
        let ended := breaks.filter (·.stop ≤ offset)
        text.positionAt offset = .ok ⟨ended.length, offset - ended.getLast?.elim 0 Span.stop⟩ := by
  refine ⟨text.lineBreaks, fun _ ↦ mem_lineBreaks_iff, pairwise_lineBreaksFrom 0 text, ?_, ?_⟩
  · rw [lineCount, lineStarts_eq, List.length_cons, List.length_map]
  · intro offset inside ended
    have lastEnd : (0 :: ended.map Span.stop).getLastD 0 = ended.getLast?.elim 0 Span.stop := by
      rw [List.getLastD_cons, List.getLastD_eq_getLast?, List.getLast?_map]
      cases ended.getLast? with
      | none | some => rfl
    rw [positionAt, if_neg (Nat.not_lt_of_le inside)]
    simp only [started_eq, List.length_cons, List.length_map, Nat.add_sub_cancel]
    rw [lastEnd]

example : lineBreaks "a\r\r\nb\n\r".toList = [⟨1, 2⟩, ⟨2, 4⟩, ⟨5, 6⟩, ⟨6, 7⟩] := by decide

end TolerantXml.Text
