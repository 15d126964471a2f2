import TolerantXml.Proofs.Reading.BrokenOff
import TolerantXml.Proofs.Reading.Settled
import TolerantXml.Proofs.Tree.Interrupted

/-!
# The text of a node

Tokens start and stop between characters, so nodes do too, unless they get another end. That is so
for what a token interrupts in a subset of declarations: it ends one byte before the token, which is
inside of a character if one of several bytes stands there (`Text.exists_char_around`). Such a node
has no text at all. Every other node of a document has the text from its start to its end
(`nodeText_parse`).
-/

namespace TolerantXml

/-! ### Boundaries of a text -/

namespace Text

variable {text part : Text} {start stop place : Nat}

private theorem isBoundary_zero (text : Text) : text.IsBoundary 0 := ⟨[], text, rfl, rfl⟩

private theorem isBoundary_byteSize (text : Text) : text.IsBoundary text.byteSize :=
  ⟨text, [], (List.append_nil text).symm, rfl⟩

private theorem isBoundary_of_slice? (h : text.slice? start stop = some part) :
    text.IsBoundary start ∧ text.IsBoundary stop := by
  obtain ⟨first, last, eq, size, rfl⟩ := slice?_eq_some_iff.1 h
  constructor
  · exact ⟨first, part ++ last, by rw [eq, List.append_assoc], size⟩
  · exact ⟨first ++ part, last, eq, by rw [byteSize_append, size]⟩

/-- Between two boundaries in order there is a slice. -/
theorem exists_slice? (le : start ≤ stop) (atStart : text.IsBoundary start)
    (atStop : text.IsBoundary stop) : ∃ part, text.slice? start stop = some part := by
  obtain ⟨first, rest, eq, rfl⟩ := atStart
  obtain ⟨passed, last, eq', rfl⟩ := atStop
  rcases List.append_eq_append_iff.1 (eq.symm.trans eq') with
    ⟨part, rfl, -⟩ | ⟨more, rfl, -⟩
  · exact ⟨part, slice?_eq_some_iff.2 ⟨first, last, eq', rfl, (byteSize_append _ _).symm⟩⟩
  · -- The second cut is not before the first, so nothing stands between them.
    rw [byteSize_append] at le
    obtain rfl : more = [] := byteSize_eq_zero.1 (by omega)
    refine ⟨[], slice?_eq_some_iff.2 ⟨passed, last, ?_, ?_, ?_⟩⟩
    · rw [eq', List.append_nil]
    · rw [List.append_nil]
    · rw [List.append_nil, byteSize_nil, Nat.add_zero]

/-- One byte before a boundary there is a boundary, or a character of several bytes around. -/
theorem exists_char_around (behind : text.IsBoundary (place + 1))
    (inside : ¬ text.IsBoundary place) :
    ∃ (first : Text) (c : Char) (rest : Text), text = first ++ c :: rest ∧
      first.byteSize < place ∧ byteSize (first ++ [c]) = place + 1 := by
  obtain ⟨passed, rest, eq, size⟩ := behind
  rcases List.eq_nil_or_concat passed with rfl | ⟨first, c, rfl⟩
  · rw [byteSize_nil] at size
    omega
  · rw [List.concat_eq_append] at eq size
    rw [List.append_assoc, List.singleton_append] at eq
    refine ⟨first, c, rest, eq, ?_, size⟩
    have positive := Char.utf8Size_pos c
    have differ : byteSize first ≠ place := fun same ↦ inside ⟨first, c :: rest, eq, same⟩
    rw [byteSize_append, byteSize_cons, byteSize_nil] at size
    omega

end Text

/-! ### Readings -/

namespace Reading

variable {text uri : Text} {mode : Mode} {passed : List Token} {r : Reading} {token : Token}
  {next : Scanner.Config}

/-- What holds of the bounds of nodes behind some tokens of a text. -/
structure Cut (text : Text) (mode : Mode) (passed : List Token) (r : Reading) : Prop where
  nested : r.Nested text mode
  aimed : r.Aimed
  starts : ∀ id < r.builder.doc.count, text.IsBoundary (r.builder.doc.node id).start
  stops : ∀ id < r.builder.doc.count, id ∉ r.builder.doc.path r.builder.current →
    text.IsBoundary (r.builder.doc.node id).stop ∨
      ∃ token ∈ passed, r.builder.doc.InterruptedBy token id
  unclosed : ∀ id ∈ r.builder.doc.path r.builder.current,
    (r.builder.doc.frame id).standsInSubset = true → (r.builder.doc.node id).closed = false
  opening : ∀ place, r.builder.endTagOpen = some place → text.IsBoundary place

theorem start_cut (text uri : Text) (mode : Mode) : Cut text mode [] (start text uri mode) where
  nested := start_nested text uri mode
  aimed := start_aimed text uri mode
  starts id lt := by
    have le := (Builder.Nested.start text uri mode).start_le lt
    rw [start, Nat.le_zero.1 le]
    exact text.isBoundary_zero
  stops id lt notOpen := by
    have ended := (Builder.Nested.start text uri mode).ended id lt notOpen
    omega
  unclosed id _ _ := Builder.closed_start text uri mode id
  opening place opened := by
    rw [start, Builder.endTagOpen_start] at opened
    cases opened

namespace Cut

theorem rescans (h : Cut text mode passed r) (rescans : r.scanner.config.Rescans next) :
    Cut text mode passed ⟨⟨next, r.scanner.cursor⟩, r.builder⟩ :=
  { h with
    nested := h.nested.rescans rescans
    aimed := h.aimed.rescans rescans }

theorem emits (h : Cut text mode passed r) (emits : r.Emits token next) :
    Cut text mode (passed ++ [token])
      ⟨⟨next, r.scanner.cursor.advance token.text⟩, r.builder.apply token⟩ := by
  have linked := h.aimed.inStep.linked
  have atStart : text.IsBoundary token.start := by
    rw [emits.start_eq]
    exact h.nested.standsIn.isBoundary
  have atStop : text.IsBoundary token.stop := by
    rw [emits.stop_eq]
    exact (h.nested.standsIn.advance emits.starts).isBoundary
  have spans : r.builder.Nested text mode token.start := by
    rw [emits.start_eq]
    exact h.nested.spans
  have ends := Builder.ends_apply spans linked h.aimed.inStep.fits emits.transition atStart atStop
    (fun _ ↦ h.opening) h.unclosed
  have keeps := h.aimed.keeps_apply emits.transition
  have takes := Builder.takes_apply linked token
  constructor
  case nested => exact h.nested.emits emits
  case aimed => exact h.aimed.emits emits
  case starts =>
    intro id lt
    rcases Nat.lt_or_ge id r.builder.doc.count with old | new
    · rw [keeps.start_eq id old]
      exact h.starts id old
    · exact ends.starts id new lt
  case stops =>
    intro id lt notOpen
    rcases Nat.lt_or_ge id r.builder.doc.count with old | new
    · by_cases wasOpen : id ∈ r.builder.doc.path r.builder.current
      · refine (ends.left id wasOpen notOpen).imp_right fun interrupted ↦ ?_
        exact ⟨token, List.mem_append_right _ (List.mem_singleton_self token), interrupted⟩
      · have same := keeps.node_eq id old wasOpen
        rw [same]
        refine (h.stops id old wasOpen).imp_right ?_
        rintro ⟨earlier, mem, interrupted⟩
        exact ⟨earlier, List.mem_append_left _ mem, interrupted.of_node_eq same⟩
    · exact .inl (ends.added id new lt notOpen)
  case unclosed =>
    intro id isOpen stands
    by_contra closed
    rw [Bool.not_eq_false] at closed
    rcases takes.closed_cases linked isOpen closed with ⟨wasOpen, wasClosed⟩ | ⟨-, -, isElement⟩
    · rw [takes.frame_eq linked (linked.lt_of_mem_path wasOpen)] at stands
      rw [h.unclosed id wasOpen stands] at wasClosed
      cases wasClosed
    · rw [isElement] at stands
      cases stands
  case opening =>
    intro place opened
    rw [Builder.endTagOpen_apply] at opened
    split at opened
    · rw [← Option.some.inj opened]
      exact atStart
    · exact h.opening place opened

/-- At the end of the text what is open ends there, and the other nodes are as they were. -/
private theorem finish (h : Cut text mode passed r) (id : Nat) :
    text.IsBoundary (r.builder.finish.node id).start ∧
      (text.IsBoundary (r.builder.finish.node id).stop ∨
        ∃ token ∈ passed, r.builder.finish.InterruptedBy token id) := by
  have linked := h.aimed.inStep.linked
  have retouched := Builder.retouched_finish r.builder
  rcases Nat.lt_or_ge id r.builder.doc.count with lt | ge
  · rw [retouched.start_eq]
    refine ⟨h.starts id lt, ?_⟩
    by_cases isOpen : id ∈ r.builder.doc.path r.builder.current
    · left
      rw [h.nested.spans.stop_finish linked, if_pos isOpen]
      exact text.isBoundary_byteSize
    · have same := Builder.node_finish linked isOpen
      rw [same]
      refine (h.stops id lt isOpen).imp_right ?_
      rintro ⟨token, mem, interrupted⟩
      exact ⟨token, mem, interrupted.of_node_eq same⟩
  · rw [Document.node_of_count_le (retouched.count_eq ▸ ge)]
    exact ⟨text.isBoundary_zero, .inl text.isBoundary_zero⟩

end Cut

end Reading

/-- Every node of a document starts between two characters. It ends between two characters too, and
its text is then all that stands between its start and its end; or it ends inside of a character of
several bytes, and has no text. That happens to an instruction, the prolog or a declaration only
that is not closed and that is interrupted by a token right behind that character. -/
theorem nodeText_parse (text uri : Text) (mode : Mode) (id : Nat) :
    let doc := Document.parse text uri mode
    let node := doc.node id
    text.IsBoundary node.start ∧
      (text.IsBoundary node.stop ∧
          text.slice? node.start node.stop = some (doc.nodeText id) ∧
          node.start + (doc.nodeText id).byteSize = node.stop ∨
        ¬ text.IsBoundary node.stop ∧ doc.nodeText id = [] ∧
          ∃ token ∈ Scanner.tokenize text mode, doc.InterruptedBy token id ∧
            ∃ (first : Text) (c : Char) (rest : Text), text = first ++ c :: rest ∧
              first.byteSize < node.stop ∧ Text.byteSize (first ++ [c]) = token.start) := by
  intro doc node
  obtain ⟨n, passed, last, atEnd, tokens, cut⟩ :=
    Reading.exists_atEnd_of_history (fun _ _ _ h ↦ h.rescans)
      (fun _ _ _ _ h ↦ h.emits) (Reading.start_cut text uri mode)
  have tokenize : Scanner.tokenize text mode = passed ++ [last] := tokens
  obtain ⟨isText, -, -, wellNested⟩ := cut.nested.finish atEnd
  have bounds := cut.finish id
  rw [← Reading.parse_eq_finish atEnd] at isText wellNested
  rw [List.nil_append, ← Reading.parse_eq_finish atEnd] at bounds
  obtain ⟨atStart, stop⟩ := bounds
  have nodeText : doc.nodeText id = (text.slice? node.start node.stop).getD [] := by
    rw [Document.nodeText, Document.textOf, isText]
    rfl
  refine ⟨atStart, ?_⟩
  by_cases atStop : text.IsBoundary node.stop
  · left
    have le : node.start ≤ node.stop := by
      rcases Nat.lt_or_ge id doc.count with lt | ge
      · exact wellNested.start_le_stop id lt
      · have outside : node = default := Document.node_of_count_le ge
        rw [outside]
        exact Nat.le_refl 0
    obtain ⟨part, isSlice⟩ := Text.exists_slice? le atStart atStop
    obtain ⟨_, _, _, _, size⟩ := Text.slice?_eq_some_iff.1 isSlice
    rw [nodeText, isSlice, Option.getD_some]
    exact ⟨atStop, rfl, size⟩
  · right
    obtain ⟨token, mem, interrupted⟩ := stop.resolve_left atStop
    have notEnd : token.kind ≠ .eos := by
      intro isEnd
      have interrupts := interrupted.interrupts
      rw [isEnd] at interrupts
      cases interrupts
    have mem : token ∈ Scanner.tokenize text mode := by
      rw [tokenize]
      exact List.mem_append_left _ mem
    obtain ⟨-, atToken, -, -⟩ :=
      Scanner.slice?_of_mem_tokens (Cursor.atStart_standsIn text) mem notEnd
    have isNone : text.slice? node.start node.stop = none := by
      rw [Option.eq_none_iff_forall_ne_some]
      exact fun part isSlice ↦ atStop (Text.isBoundary_of_slice? isSlice).2
    have around := Text.exists_char_around (interrupted.stop_succ ▸ atToken) atStop
    rw [interrupted.stop_succ] at around
    refine ⟨atStop, ?_, token, mem, interrupted, around⟩
    rw [nodeText, isNone, Option.getD_none]

/-- An instruction behind a letter of two bytes ends a declaration inside of the letter. -/
theorem nodeText_parse_interrupted :
    let text : Text := ['<', '!', 'E', 'N', 'T', 'I', 'T', 'Y', ' ', 'é', '<', '?']
    let doc := Document.parse text [] .dtd
    doc.count = 4 ∧ (doc.node 2).span = ⟨0, 10⟩ ∧ ¬ text.IsBoundary 10 ∧ doc.nodeText 2 = [] := by
  intro text doc
  have count : (Document.parse text [] .dtd).count = 4 := by decide +kernel
  have span : ((Document.parse text [] .dtd).node 2).span = ⟨0, 10⟩ := by decide +kernel
  have nodeText : (Document.parse text [] .dtd).nodeText 2 = [] := by decide +kernel
  have isNone : text.slice? 0 10 = none := by decide +kernel
  refine ⟨count, span, fun boundary ↦ ?_, nodeText⟩
  obtain ⟨part, isSlice⟩ := Text.exists_slice? (Nat.zero_le 10) text.isBoundary_zero boundary
  rw [isNone] at isSlice
  cases isSlice

end TolerantXml
