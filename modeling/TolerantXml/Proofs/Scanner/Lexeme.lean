import Mathlib.Data.List.Infix
import Mathlib.Data.List.TakeWhile
import TolerantXml.Proofs.Print.Forest

/-!
# Lexemes in front of other text

What each lexeme function recognises of a text that starts with a lexeme of its kind: exactly that
lexeme, whatever follows, as long as the next character does not continue it.
-/

namespace TolerantXml.Lexeme

variable {p : Char → Bool} {pattern taken tail content : Text} {c d : Char}

/-- A run ends in front of the first character that is not in the class. -/
theorem run_append (inside : ∀ c ∈ taken, p c = true) (outside : ∀ c ∈ tail.head?, p c = false) :
    run p (taken ++ tail) = taken := by
  rw [run, List.takeWhile_append_of_pos inside]
  cases tail with
  | nil => rw [List.takeWhile_nil, List.append_nil]
  | cons c tail =>
    rw [List.takeWhile_cons_of_neg, List.append_nil]
    rw [outside c rfl]
    decide

theorem run_cons_of_neg (outside : p c = false) : run p (c :: tail) = [] := by
  rw [run, List.takeWhile_cons_of_neg]
  rw [outside]
  decide

/-- The character behind a run is not in the class. -/
theorem eq_of_mem_head?_drop_run (mem : c ∈ (tail.drop (run p tail).length).head?) :
    p c = false := by
  have both : run p tail ++ tail.dropWhile p = tail := List.takeWhile_append_dropWhile
  have split : tail.drop (run p tail).length = tail.dropWhile p :=
    (congrArg (List.drop _) both.symm).trans List.drop_left
  have stops := List.head?_dropWhile_not p tail
  rw [← split, Option.mem_def.1 mem] at stops
  exact stops

/-- A character that is not in the class is not in a run. -/
theorem not_mem_run (outside : p c = false) : c ∉ run p tail := by
  intro mem
  rw [List.mem_takeWhile_imp mem] at outside
  cases outside

theorem literal_append (pattern tail : Text) : literal pattern (pattern ++ tail) = pattern := by
  rw [literal, if_pos (List.isPrefixOf_iff_prefix.2 (List.prefix_append pattern tail))]

/-- A fixed text is not ahead if it differs from what is in the first character. -/
theorem literal_cons_of_ne (differ : c ≠ d) : literal (c :: pattern) (d :: tail) = [] := by
  rw [literal, if_neg]
  intro isPrefix
  exact differ (List.cons_prefix_cons.1 (List.isPrefixOf_iff_prefix.1 isPrefix)).1

theorem literal_cons_cons_of_ne {e : Char} (differ : c ≠ d) :
    literal (e :: c :: pattern) (e :: d :: tail) = [] := by
  rw [literal, if_neg]
  intro isPrefix
  have rest := (List.cons_prefix_cons.1 (List.isPrefixOf_iff_prefix.1 isPrefix)).2
  exact differ (List.cons_prefix_cons.1 rest).1

theorem literal_eq_nil (differ : ¬ pattern <+: tail) : literal pattern tail = [] := by
  rw [literal, if_neg fun isPrefix ↦ differ (List.isPrefixOf_iff_prefix.1 isPrefix)]

/-- A fixed text is read in full or not at all. -/
theorem literal_eq_of_ne_nil (isRead : literal pattern tail ≠ []) :
    literal pattern tail = pattern := by
  rw [literal] at isRead ⊢
  split at isRead
  · next isAhead => rw [if_pos isAhead]
  · exact absurd rfl isRead

theorem keyword_eq_of_ne_nil (isRead : keyword pattern tail ≠ []) :
    keyword pattern tail = pattern := by
  rw [keyword] at isRead ⊢
  split at isRead
  · next isAhead => rw [if_pos isAhead]
  · exact absurd rfl isRead

/-- A pattern is not ahead of a text that is free of it and comes in front of the pattern, if the
last character of the pattern is nowhere else in it. -/
theorem not_prefix_append {front : Text} {last : Char} (notFront : last ∉ front)
    (free : ¬ (front ++ [last]) <:+: content) (nonempty : content ≠ []) (tail : Text) :
    ¬ (front ++ [last]) <+: content ++ (front ++ [last] ++ tail) := by
  rintro ⟨after, eq⟩
  rcases List.append_eq_append_iff.1 eq with ⟨more, eq, -⟩ | ⟨more, eq, rest⟩
  · exact free ⟨[], more, by rw [eq, List.nil_append]⟩
  · -- The pattern runs over the end of the text, so what is left of it starts the pattern too.
    cases more using List.reverseRecOn with
    | nil =>
      rw [List.append_nil] at eq
      exact free ⟨[], [], by rw [eq, List.append_nil, List.nil_append]⟩
    | append_singleton more c =>
      rw [← List.append_assoc] at eq
      obtain ⟨frontEq, isLast⟩ := List.append_inj' eq rfl
      obtain rfl : last = c := (List.cons.inj isLast).1
      have short : more.length < front.length := by
        have := List.length_pos_iff.2 nonempty
        rw [frontEq, List.length_append]
        omega
      have place : (front ++ ([last] ++ tail))[more.length]? = some last := by
        rw [← List.append_assoc, rest]
        simp
      rw [List.getElem?_append_left short] at place
      exact notFront (List.mem_of_getElem? place)

/-- The first occurrence of a pattern behind a text that is free of it is right behind the text, if
the last character of the pattern is nowhere else in it. -/
theorem upTo_append {front : Text} {last : Char} (notFront : last ∉ front)
    (free : ¬ (front ++ [last]) <:+: content) (tail : Text) :
    upTo (front ++ [last]) (content ++ (front ++ [last] ++ tail)) = content := by
  induction content with
  | nil =>
    have ahead : (front ++ [last]).isPrefixOf (front ++ [last] ++ tail) = true :=
      List.isPrefixOf_iff_prefix.2 (List.prefix_append _ tail)
    rw [List.nil_append]
    cases eq : front ++ [last] ++ tail with
    | nil => rfl
    | cons c rest =>
      rw [eq] at ahead
      rw [upTo, if_pos ahead]
  | cons c content ih =>
    have notAhead := not_prefix_append notFront free (List.cons_ne_nil c content) tail
    have freeBehind : ¬ (front ++ [last]) <:+: content := by
      rintro ⟨before, after, eq⟩
      exact free ⟨c :: before, after, by rw [← eq]; rfl⟩
    rw [List.cons_append] at notAhead ⊢
    rw [upTo, if_neg fun isPrefix ↦ notAhead (List.isPrefixOf_iff_prefix.1 isPrefix),
      ih freeBehind]

private theorem isNameChar_of_isName (isName : taken.isName = true) :
    ∀ c ∈ taken, isNameChar c = true := by
  cases taken with
  | nil => cases isName
  | cons c rest =>
    rw [Text.isName, Bool.and_eq_true] at isName
    intro d mem
    rcases List.mem_cons.1 mem with rfl | mem
    · exact isNameChar_of_isNameStart isName.1
    · exact List.all_eq_true.1 isName.2 d mem

/-- A name ends in front of the first character that cannot stand in one. -/
theorem name_append (isName : taken.isName = true)
    (outside : ∀ c ∈ tail.head?, isNameChar c = false) :
    name (taken ++ tail) = taken := by
  have isRun := run_append (isNameChar_of_isName isName) outside
  cases taken with
  | nil => cases isName
  | cons c rest =>
    rw [Text.isName, Bool.and_eq_true] at isName
    rw [name, if_pos (by simpa using isName.1), isRun]

/-- No character of a name ends the target of the prolog. -/
theorem isNameChar_eq_false (ends : (c == '?' || isSpace c) = true) : isNameChar c = false := by
  simp only [isSpace, Bool.or_eq_true, beq_iff_eq] at ends
  rcases ends with rfl | ((rfl | rfl) | rfl) | rfl <;> decide

/-- The target of the prolog is not ahead where another name is. -/
theorem prologTarget_append (isName : taken.isName = true) (notProlog : taken ≠ Keyword.xml)
    (outside : ∀ c ∈ tail.head?, isNameChar c = false) : prologTarget (taken ++ tail) = [] := by
  rw [prologTarget, if_neg]
  intro isProlog
  rw [Bool.and_eq_true] at isProlog
  obtain ⟨isPrefix, ends⟩ := isProlog
  obtain ⟨after, eq⟩ := List.isPrefixOf_iff_prefix.1 isPrefix
  rcases List.append_eq_append_iff.1 eq with ⟨more, isMore, -⟩ | ⟨more, isMore, rest⟩
  · cases more with
    | nil => exact notProlog (by rw [isMore, List.append_nil])
    | cons c more =>
      rw [isMore, List.append_assoc, List.drop_left] at ends
      have isChar := isNameChar_of_isName isName c (by simp [isMore])
      rw [isNameChar_eq_false (by simpa using ends)] at isChar
      cases isChar
  · cases more with
    | nil => exact notProlog (by rw [isMore, List.append_nil])
    | cons c more =>
      have inProlog : c ∈ Keyword.xml := by simp [isMore]
      have isChar : Keyword.xml.all isNameChar = true := by decide
      have notChar := outside c (by rw [rest]; rfl)
      rw [List.all_eq_true.1 isChar c inProlog] at notChar
      cases notChar

/-- White space does not stand in the names of attributes. -/
theorem isSpace_of_isAttributeNameChar (isChar : isAttributeNameChar false c = true) :
    isSpace c = false := by
  revert isChar
  simp +contextual [isAttributeNameChar]

/-- A quoted text without the quotation mark in it is read in full. -/
theorem quoted_append (mark : Char) (isQuote : Text.isQuote mark = true) (inside : mark ∉ content)
    (tail : Text) : quoted (Text.quote mark content ++ tail) = Text.quote mark content := by
  have inner : run (· != mark) (content ++ (mark :: tail)) = content := by
    apply run_append
    · intro c mem
      exact bne_iff_ne.2 fun eq ↦ inside (eq ▸ mem)
    · intro c head
      cases head
      exact bne_self_eq_false' _
  have split : Text.quote mark content ++ tail = mark :: (content ++ mark :: tail) := by
    simp [Text.quote]
  rw [split, quoted, if_pos isQuote, inner]
  simp [Text.quote]

end TolerantXml.Lexeme
