import TolerantXml.Markup.Delimiter
import TolerantXml.Markup.Name
import TolerantXml.Text.Quoted

/-!
# Lexemes

A lexeme function takes the text ahead and gives the part of it that it recognises, which is a
prefix (the lemmas `isPrefix_…`) and empty where there is nothing to recognise.
-/

namespace TolerantXml.Lexeme

/-- The longest run of characters in a class. -/
def run (p : Char → Bool) (rest : Text) : Text := rest.takeWhile p

/-- The white space ahead. -/
def space (rest : Text) : Text := run isSpace rest

/-- One character of any kind. -/
def anyChar (rest : Text) : Text := rest.take 1

/-- A fixed text. -/
def literal (pattern rest : Text) : Text := if pattern.isPrefixOf rest then pattern else []

/-- A fixed text in which ASCII letters may have either case. -/
def literalAnyCase (pattern rest : Text) : Text :=
  let head := rest.take pattern.length
  if head.map Char.toLower = pattern.map Char.toLower then head else []

/-- A fixed text that no further character of a name follows. -/
def keyword (pattern rest : Text) : Text :=
  if pattern.isPrefixOf rest && (rest.drop pattern.length).head?.all fun c ↦ !isNameChar c then
    pattern
  else []

/-- Everything before the first occurrence of a fixed text, or all if it does not occur. -/
def upTo (pattern : Text) : Text → Text
  | [] => []
  | c :: rest => if pattern.isPrefixOf (c :: rest) then [] else c :: upTo pattern rest

/-- A name. -/
def name (rest : Text) : Text :=
  if rest.head?.any isNameStart then run isNameChar rest else []

/-- A text between quotation marks, which runs to the end of the text if it is not closed. -/
def quoted : Text → Text
  | [] => []
  | mark :: rest =>
    if Text.isQuote mark then
      let inner := run (· != mark) rest
      mark :: (inner ++ (rest.drop inner.length).take 1)
    else []

/-- Whether a character may stand in the name of an attribute. -/
def isAttributeNameChar (inProlog : Bool) (c : Char) : Bool :=
  !isSpace c && !Text.isQuote c && c != '<' && c != '>' && c != '/' && c != '=' &&
    !(inProlog && c == '?')

/-- The name of an attribute; in the prolog it stops at a question mark. -/
def attributeName (inProlog : Bool) (rest : Text) : Text := run (isAttributeNameChar inProlog) rest

/-- Whether a character may stand in a value without quotation marks. -/
def isBareValueChar (c : Char) : Bool :=
  !isSpace c && !Text.isQuote c && c != '\x60' && c != '=' && c != '<' && c != '>'

/-- A value without quotation marks, which leaves the slash of `/>` to the tag. -/
def bareValue (rest : Text) : Text :=
  let value := run isBareValueChar rest
  if (rest.drop value.length).head? = some '>' ∧ value.getLast? = some '/' then value.dropLast
  else value

/-- The target of the prolog: `xml` before white space, a question mark or the end. -/
def prologTarget (rest : Text) : Text :=
  if Keyword.xml.isPrefixOf rest &&
      (rest.drop Keyword.xml.length).head?.all fun c ↦ c == '?' || isSpace c then
    Keyword.xml
  else []

/-- Whether a character ends a word in a declaration. -/
def isWordBreak (c : Char) : Bool :=
  isSpace c || c == '<' || c == '>' || c == '[' || c == ']' || c == '(' || c == ')' ||
    Text.isQuote c

/-- A word in a declaration. -/
def word (rest : Text) : Text := run (fun c ↦ !isWordBreak c) rest

/-- The word that ends a text, whose nearest character comes first. -/
def lastWord (before : Text) : Text := (before.takeWhile fun c ↦ !isWordBreak c).reverse

/-- The part of a text up to the bracket that closes the group it stands in, where `depth` more
groups are open inside that group; it stops early before an angle bracket. -/
def groupTail (depth : Nat) : Text → Text
  | [] => []
  | c :: rest =>
    if c = '<' ∨ c = '>' then []
    else if c = '(' then c :: groupTail (depth + 1) rest
    else if c = ')' then
      match depth with
      | 0 => [c]
      | depth + 1 => c :: groupTail depth rest
    else c :: groupTail depth rest

/-- A group in round brackets with the groups nested in it. -/
def group : Text → Text
  | [] => []
  | c :: rest => if c = '(' then c :: groupTail 0 rest else []

/-- A content model: a group and the mark of how often it occurs. -/
def contentModel (rest : Text) : Text :=
  match group rest with
  | [] => []
  | c :: tail =>
    c :: tail ++
      run (fun d ↦ d == '?' || d == '*' || d == '+') ((rest.drop (tail.length + 1)).take 1)

/-- Text that has no place in a declaration: one character, and what follows it up to white
space or a delimiter. -/
def unrecognized : Text → Text
  | [] => []
  | c :: rest =>
    c :: run (fun d ↦ !isSpace d && d != '<' && d != '>' && d != '[' && d != ']') rest

/-! ### Lexemes are prefixes -/

theorem isPrefix_run (p : Char → Bool) (rest : Text) : run p rest <+: rest :=
  List.takeWhile_prefix p

theorem isPrefix_anyChar (rest : Text) : anyChar rest <+: rest := List.take_prefix 1 rest

theorem isPrefix_literal (pattern rest : Text) : literal pattern rest <+: rest := by
  rw [literal]
  split
  next h => exact List.isPrefixOf_iff_prefix.1 h
  next => exact List.nil_prefix

theorem isPrefix_literalAnyCase (pattern rest : Text) : literalAnyCase pattern rest <+: rest := by
  rw [literalAnyCase]
  split
  next => exact List.take_prefix _ rest
  next => exact List.nil_prefix

theorem isPrefix_keyword (pattern rest : Text) : keyword pattern rest <+: rest := by
  rw [keyword]
  split
  next h => exact List.isPrefixOf_iff_prefix.1 (Bool.and_eq_true_iff.1 h).1
  next => exact List.nil_prefix

theorem isPrefix_upTo (pattern rest : Text) : upTo pattern rest <+: rest := by
  induction rest with
  | nil => exact List.nil_prefix
  | cons c rest ih =>
    rw [upTo]
    split
    next => exact List.nil_prefix
    next => exact List.cons_prefix_cons.2 ⟨rfl, ih⟩

theorem isPrefix_name (rest : Text) : name rest <+: rest := by
  rw [name]
  split
  next => exact isPrefix_run _ rest
  next => exact List.nil_prefix

theorem isPrefix_quoted (rest : Text) : quoted rest <+: rest := by
  cases rest with
  | nil => exact List.nil_prefix
  | cons mark rest =>
    rw [quoted]
    split
    next =>
      refine List.cons_prefix_cons.2 ⟨rfl, ?_⟩
      obtain ⟨after, h⟩ := isPrefix_run (· != mark) rest
      have drop : rest.drop (run (· != mark) rest).length = after :=
        (List.append_cancel_left (h.trans (List.prefix_iff_eq_append.1 ⟨after, h⟩).symm)).symm
      rw [drop]
      exact ⟨after.drop 1, by rw [List.append_assoc, List.take_append_drop, h]⟩
    next => exact List.nil_prefix

theorem isPrefix_bareValue (rest : Text) : bareValue rest <+: rest := by
  rw [bareValue]
  split
  next => exact (List.dropLast_prefix _).trans (isPrefix_run _ rest)
  next => exact isPrefix_run _ rest

theorem isPrefix_prologTarget (rest : Text) : prologTarget rest <+: rest := by
  rw [prologTarget]
  split
  next h => exact List.isPrefixOf_iff_prefix.1 (Bool.and_eq_true_iff.1 h).1
  next => exact List.nil_prefix

theorem isPrefix_groupTail (depth : Nat) (rest : Text) : groupTail depth rest <+: rest := by
  fun_induction groupTail depth rest with
  | case1 => exact List.nil_prefix
  | case2 => exact List.nil_prefix
  | case3 depth rest _ ih => exact List.cons_prefix_cons.2 ⟨rfl, ih⟩
  | case4 rest => exact List.cons_prefix_cons.2 ⟨rfl, List.nil_prefix⟩
  | case5 rest depth _ _ ih => exact List.cons_prefix_cons.2 ⟨rfl, ih⟩
  | case6 depth c rest _ _ _ ih => exact List.cons_prefix_cons.2 ⟨rfl, ih⟩

theorem isPrefix_group (rest : Text) : group rest <+: rest := by
  cases rest with
  | nil => exact List.nil_prefix
  | cons c rest =>
    rw [group]
    split
    next => exact List.cons_prefix_cons.2 ⟨rfl, isPrefix_groupTail 0 rest⟩
    next => exact List.nil_prefix

theorem isPrefix_contentModel (rest : Text) : contentModel rest <+: rest := by
  obtain ⟨after, h⟩ := isPrefix_group rest
  rw [contentModel]
  split
  next => exact List.nil_prefix
  next c tail hgroup =>
    rw [hgroup] at h
    subst h
    have drop : (c :: tail ++ after).drop (tail.length + 1) = after :=
      List.drop_left
    rw [drop, List.prefix_append_right_inj]
    exact (isPrefix_run _ _).trans (List.take_prefix 1 after)

theorem isPrefix_unrecognized (rest : Text) : unrecognized rest <+: rest := by
  cases rest with
  | nil => exact List.nil_prefix
  | cons c rest => exact List.cons_prefix_cons.2 ⟨rfl, isPrefix_run _ rest⟩

end TolerantXml.Lexeme
