import TolerantXml.Proofs.Reading.Attributes

/-!
# Attributes do not touch

In front of the name of an attribute there is white space behind any name and any value before it
(`exists_whitespace`). So the attributes that a tag writes stand apart from one another
(`pairwise_occurrences`), and an offset lies in or right behind one attribute of a node at most
(`attributes_apart`).
-/

namespace TolerantXml

namespace Attribute

variable {attributes : List Attribute} {attr other : Attribute} {tokens : List Token}

/-- Whether no offset lies in or right behind both of two attributes. -/
def Apart (attr other : Attribute) : Prop :=
  ∀ offset, ¬ (attr.includes offset = true ∧ other.includes offset = true)

instance : Std.Symm Apart := ⟨fun _ _ apart offset both ↦ apart offset both.symm⟩

private theorem apart_of_lt (lt : attr.span.stop < other.span.start) : attr.Apart other := by
  rintro offset ⟨inFirst, inSecond⟩
  simp only [includes, Span.touches, Bool.and_eq_true, decide_eq_true_eq] at inFirst inSecond
  omega

/-- What stands apart has at most one attribute at an offset. -/
private theorem length_filter_includes_le (apart : attributes.Pairwise Apart) (offset : Nat) :
    (attributes.filter (·.includes offset)).length ≤ 1 := by
  have pairwise := apart.sublist (List.filter_sublist (p := (·.includes offset)))
  have all : ∀ attr ∈ attributes.filter (·.includes offset), attr.includes offset = true :=
    fun attr mem ↦ (List.mem_filter.1 mem).2
  generalize attributes.filter (·.includes offset) = found at pairwise all
  cases found with
  | nil => exact Nat.zero_le 1
  | cons first others =>
    cases others with
    | nil => exact Nat.le_refl 1
    | cons second others =>
      have apart := (List.pairwise_cons.1 pairwise).1 second List.mem_cons_self
      exact absurd ⟨all first (by simp), all second (by simp)⟩ (apart offset)

/-- The last attributes of each name stand apart if all do. -/
private theorem pairwise_lastOfEach (apart : attributes.Pairwise Apart) :
    (lastOfEach attributes).Pairwise Apart := by
  have names : ((lastOfEach attributes).map (·.name)).Nodup := by
    rw [map_name_lastOfEach]
    exact nodup_eraseDups _
  refine (List.pairwise_map.1 names).imp_of_mem fun mem mem' differ ↦ ?_
  exact apart.forall (mem_of_mem_lastOfEach mem) (mem_of_mem_lastOfEach mem')
    fun same ↦ differ (congrArg Attribute.name same)

/-- An attribute that tokens write has one of their names, and there are no tokens but names behind
which it stands. -/
theorem exists_name_of_mem_occurrences (mem : attr ∈ occurrences tokens) :
    ∃ name ∈ tokens.dropWhile (·.kind ≠ .attributeName), name.kind = .attributeName ∧
      attr.span.start = name.start := by
  induction tokens with
  | nil => cases mem
  | cons token tokens ih =>
    rw [occurrences] at mem
    split at mem
    · next isName =>
      rw [List.dropWhile_cons_of_neg (by simp [isName])]
      rcases List.mem_cons.1 mem with rfl | mem
      · refine ⟨token, List.mem_cons_self, isName, ?_⟩
        rw [written]
        split <;> rfl
      · obtain ⟨name, mem, found⟩ := ih mem
        exact ⟨name, List.mem_cons_of_mem _ ((List.dropWhile_suffix _).subset mem), found⟩
    · next notName =>
      rw [List.dropWhile_cons_of_pos (by simp [notName])]
      exact ih mem

/-- The end of an attribute is that of its name or of the value that it got. -/
theorem exists_word_of_written (name : Token) (between : List Token) :
    (written name between).span.stop = name.stop ∨
      ∃ value ∈ between, value.kind = .attributeValue ∧
        (written name between).span.stop = value.stop := by
  rw [written]
  split
  · next value found =>
    refine .inr ⟨value, List.mem_of_find?_eq_some found, ?_, rfl⟩
    simpa using List.find?_some found
  · exact .inl rfl

end Attribute

/-- Whether the names of attributes among some tokens are set apart from all words before them. -/
def NamesApart (tokens : List Token) : Prop :=
  tokens.Pairwise fun word name ↦
    word.kind.isTagWord = true → name.kind = .attributeName → word.stop < name.start

/-- What holds of any two of some tokens, whatever stands around them, holds of all pairs. -/
private theorem pairwise_of_split {tokens : List Token} {R : Token → Token → Prop}
    (h : ∀ before first between second ahead,
      tokens = before ++ first :: (between ++ second :: ahead) → R first second) :
    tokens.Pairwise R := by
  induction tokens with
  | nil => exact .nil
  | cons token tokens ih =>
    refine List.pairwise_cons.2 ⟨fun second mem ↦ ?_, ih fun before first between second ahead
      split ↦ ?_⟩
    · obtain ⟨between, ahead, rfl⟩ := List.append_of_mem mem
      exact h [] token between second ahead rfl
    · exact h (token :: before) first between second ahead (congrArg (token :: ·) split)

/-- Where names are set apart, the attributes that are written stand apart. -/
theorem pairwise_occurrences {tokens : List Token} (apart : NamesApart tokens) :
    (Attribute.occurrences tokens).Pairwise Attribute.Apart := by
  induction tokens with
  | nil => exact .nil
  | cons token tokens ih =>
    obtain ⟨first, apart⟩ := List.pairwise_cons.1 apart
    rw [Attribute.occurrences]
    split
    · next isName =>
      refine List.pairwise_cons.2 ⟨fun attr mem ↦ Attribute.apart_of_lt ?_, ih apart⟩
      obtain ⟨name, mem, isName', start⟩ := Attribute.exists_name_of_mem_occurrences mem
      rw [start]
      rcases Attribute.exists_word_of_written token
          (tokens.takeWhile (·.kind ≠ .attributeName)) with stop | ⟨value, mem', isValue, stop⟩
      · rw [stop]
        refine first name ((List.dropWhile_suffix _).subset mem) ?_ isName'
        rw [isName]
        rfl
      · rw [stop]
        rw [← List.takeWhile_append_dropWhile (p := (·.kind ≠ .attributeName)) (l := tokens),
          List.pairwise_append] at apart
        refine apart.2.2 value mem' name mem ?_ isName'
        rw [isValue]
        rfl
    · exact ih apart

namespace Scanner

variable {text : Text} {mode : Mode} {before between ahead : List Token} {word name : Token}

/-- In front of the name of an attribute there is white space behind any word of a tag. -/
theorem exists_whitespace
    (split : tokenize text mode = before ++ word :: (between ++ name :: ahead))
    (isWord : word.kind.isTagWord = true) (isName : name.kind = .attributeName) :
    ∃ space ∈ between, space.kind = .whitespace := by
  have initial : (Config.initial mode).Sound ∧ (Config.initial mode).Spaced [] :=
    ⟨Config.initial_sound mode, Config.initial_spaced mode⟩
  have split : (Reading.start text [] mode).scanner.tokens =
      (before ++ word :: between) ++ name :: ahead := by
    rw [List.append_assoc, List.cons_append]
    exact split
  obtain ⟨config, next, cursor, ⟨-, spaced⟩, emits⟩ := Reading.exists_emits_of_history
    (fun passed r _ (h : r.scanner.config.Sound ∧ r.scanner.config.Spaced passed) rescans ↦
      ⟨h.1.rescans rescans, h.2.rescans rescans h.1⟩)
    (fun _ _ _ _ h emits ↦ ⟨h.1.emits emits.transition, h.2.emits h.1 emits.transition⟩)
    initial split (by rw [isName]; decide)
  have spaceSeen : config.spaceSeen = true := by
    rw [isName] at emits
    cases emits with
    | attributeName _ space => exact space
    | doctypePart _ fills | elementPart _ fills | attlistPart _ fills | entityPart _ fills =>
      cases fills
  exact spaced.behind spaceSeen before word between rfl isWord

/-- The names of attributes in a text are set apart from all words before them. -/
theorem namesApart_tokenize (text : Text) (mode : Mode) : NamesApart (tokenize text mode) := by
  have ordered : (tokenize text mode).Pairwise fun first second ↦ first.stop ≤ second.start :=
    pairwise_tokens (start text mode)
  refine pairwise_of_split fun before word between name ahead split isWord isName ↦ ?_
  obtain ⟨space, mem, isSpace⟩ := exists_whitespace split isWord isName
  obtain ⟨first, last, rfl⟩ := List.append_of_mem mem
  have stands : (start text mode).cursor.StandsIn text := Cursor.atStart_standsIn text
  have isToken : space ∈ (start text mode).tokens := by
    rw [← tokenize, split]
    simp
  obtain ⟨nonempty, -⟩ := slice?_of_mem_tokens stands isToken (by rw [isSpace]; decide)
  rw [split] at ordered
  have behind := (List.pairwise_append.1 ordered).2.1
  have beforeSpace : word.stop ≤ space.start :=
    (List.pairwise_cons.1 behind).1 space (by simp)
  have behindSpace : space.stop ≤ name.start := by
    have rest := (List.pairwise_cons.1 behind).2
    rw [List.append_assoc, List.cons_append] at rest
    exact (List.pairwise_cons.1 (List.pairwise_append.1 rest).2.1).1 name (by simp)
  omega

end Scanner

/-- The attributes of a node have distinct names and stand apart from one another. -/
theorem pairwise_apart_parse (text uri : Text) (mode : Mode) (id : Nat) :
    let attributes := (Document.parse text uri mode).attributes id
    (attributes.map (·.name)).Nodup ∧ attributes.Pairwise Attribute.Apart := by
  intro attributes
  obtain ⟨written, none⟩ := exists_tag_parse text uri mode id
  by_cases isTagged : (Document.parse text uri mode).IsTagged id
  · obtain ⟨behind, ⟨before, opening, split, -⟩, eq⟩ := written isTagged
    have eq : attributes = Attribute.lastOfEach (Attribute.occurrences (tagTokens behind)) := eq
    have apart : NamesApart (tagTokens behind) := by
      have all := Scanner.namesApart_tokenize text mode
      rw [split] at all
      exact all.sublist ((List.takeWhile_sublist _).trans
        ((List.sublist_cons_self _ _).trans (List.sublist_append_right _ _)))
    rw [eq]
    constructor
    · rw [Attribute.map_name_lastOfEach]
      exact Attribute.nodup_eraseDups _
    · exact Attribute.pairwise_lastOfEach (pairwise_occurrences apart)
  · have none : attributes = [] := none isTagged
    rw [none]
    exact ⟨List.nodup_nil, .nil⟩

/-- Behind a word of a tag, which is its name or the name or the value of an attribute, white space
comes before the name of the next attribute. So the names of the attributes of a node are distinct,
and an offset lies in or right behind one of them at most. -/
theorem attributes_apart (text uri : Text) (mode : Mode) :
    (∀ (before : List Token) (word : Token) (between : List Token) (name : Token)
        (ahead : List Token),
      Scanner.tokenize text mode = before ++ word :: (between ++ name :: ahead) →
      word.kind.isTagWord = true → name.kind = .attributeName →
      ∃ space ∈ between, space.kind = .whitespace) ∧
    ∀ id, let attributes := (Document.parse text uri mode).attributes id
      (attributes.map (·.name)).Nodup ∧
        ∀ offset, (attributes.filter (·.includes offset)).length ≤ 1 := by
  refine ⟨fun _ _ _ _ _ ↦ Scanner.exists_whitespace, fun id ↦ ?_⟩
  obtain ⟨names, apart⟩ := pairwise_apart_parse text uri mode id
  exact ⟨names, Attribute.length_filter_includes_le apart⟩

end TolerantXml
