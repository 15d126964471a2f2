import TolerantXml.Proofs.Reading.InStep
import TolerantXml.Proofs.Tree.Spared

/-!
# Nodes that are settled

The value of an attribute is the only token that reaches a node through what the builder remembers.
Where the scanner reads one, the attribute that waits for it is one of the current node
(`Reading.Aimed`), so every token of a text spares the nodes that were left (`Aimed.keeps_next`).
Such a node is settled: it is in the finished document what it is now (`node_parse_of_left`).
-/

namespace TolerantXml

namespace Reading

variable {text uri : Text} {mode : Mode} {r : Reading} {id n : Nat}

theorem after_succ (r : Reading) (n : Nat) : r.after (n + 1) = (r.after n).next := after_add r n 1

/-- Scanner and builder are in step, and a value that is read now is for the current node. -/
structure Aimed (r : Reading) : Prop where
  inStep : r.InStep
  value : r.scanner.config.state.awaitsValue = true →
    ∃ index, r.builder.pending = some (r.builder.current, index)

theorem start_aimed (text uri : Text) (mode : Mode) : (start text uri mode).Aimed where
  inStep := start_inStep text uri mode
  value awaitsValue := by cases mode <;> cases awaitsValue

namespace Aimed

theorem rescans (h : r.Aimed) {next : Scanner.Config} (rescans : r.scanner.config.Rescans next) :
    Aimed ⟨⟨next, r.scanner.cursor⟩, r.builder⟩ where
  inStep := h.inStep.rescans rescans
  value awaitsValue := by
    rw [rescans.awaitsValue_eq_false h.inStep.sound] at awaitsValue
    cases awaitsValue

theorem emits (h : r.Aimed) {token : Token} {next : Scanner.Config} (emits : r.Emits token next) :
    Aimed ⟨⟨next, r.scanner.cursor.advance token.text⟩, r.builder.apply token⟩ where
  inStep := h.inStep.emits emits
  value awaitsValue := by
    have awaits := h.inStep.fits.awaits h.inStep.pending emits.transition
    rcases emits.transition.cases_of_awaitsValue h.inStep.sound awaitsValue with
      kind | ⟨before, kind | kind⟩
    · rw [kind] at awaits
      obtain ⟨attributes, hasAttributes⟩ := Option.isSome_iff_exists.1 awaits
      refine ⟨Attribute.indexOf attributes token.text, ?_⟩
      simp only [Builder.apply, kind]
      rw [(Builder.retouched_nameAttribute r.builder _).current_eq]
      simp only [Builder.nameAttribute, hasAttributes]
      rw [Builder.pending_setCurrentStop]
    · simp only [Builder.apply, kind]
      exact h.value before
    · simp only [Builder.apply, kind]
      exact h.value before

private theorem after (h : r.Aimed) (n : Nat) : (r.after n).Aimed :=
  after_invariant (fun _ _ aimed rescans ↦ aimed.rescans rescans)
    (fun _ _ _ aimed ↦ aimed.emits) h n

/-- A token closes the current node at the end of a tag, or it spares what is not open and all the
tags. -/
theorem closes_or_spares_apply (h : r.Aimed) {token : Token} {next : Scanner.Config}
    (emits : r.scanner.config.Emits token.kind token.text next) :
    token.kind.Closes ∧ Builder.ClosesTag token.stop r.builder (r.builder.apply token) ∨
      Builder.Spares (token.kind = .startTagOpen) r.builder (r.builder.apply token) := by
  by_cases closes : token.kind.Closes
  · exact .inl ⟨closes, Builder.closesTag_apply h.inStep.linked closes⟩
  · refine .inr (Builder.spares_apply h.inStep.linked (fun isValue ↦ ?_) closes)
    exact h.value (by rw [emits.state_of_kind isValue rfl]; rfl)

/-- A token leaves what is not open as it is. -/
theorem keeps_apply (h : r.Aimed) {token : Token} {next : Scanner.Config}
    (emits : r.scanner.config.Emits token.kind token.text next) :
    Builder.Keeps r.builder (r.builder.apply token) := by
  rcases h.closes_or_spares_apply emits with ⟨-, closes⟩ | spares
  · exact closes.keeps h.inStep.linked
  · exact spares.toKeeps

/-- So does the token that is read next. -/
theorem closes_or_spares (h : r.Aimed) :
    r.scanner.next.1.kind.Closes ∧
        Builder.ClosesTag r.scanner.next.1.stop r.builder r.next.builder ∨
      Builder.Spares (r.scanner.next.1.kind = .startTagOpen) r.builder r.next.builder := by
  by_cases ahead : r.scanner.cursor.rest = []
  · rw [next_of_rest_nil ahead]
    exact .inr (.refl _)
  · obtain ⟨config, next, token, now, emits, eq⟩ :=
      exists_emits (fun _ _ aimed rescans ↦ aimed.rescans rescans) h ahead
    rw [Reading.next, eq]
    exact now.closes_or_spares_apply emits.transition

theorem keeps_next (h : r.Aimed) : Builder.Keeps r.builder r.next.builder := by
  rcases h.closes_or_spares with ⟨-, closes⟩ | spares
  · exact closes.keeps h.inStep.linked
  · exact spares.toKeeps

/-- Whatever is read, the nodes that were left stay as they are. -/
theorem keeps_after (h : r.Aimed) (n : Nat) : Builder.Keeps r.builder (r.after n).builder := by
  induction n with
  | zero => exact .refl _
  | succ n ih =>
    rw [after_succ]
    exact ih.trans (h.after n).keeps_next

/-- A node that was left is in the document what it is now. -/
private theorem node_finish (h : r.Aimed) (lt : id < r.builder.doc.count)
    (left : id ∉ r.builder.doc.path r.builder.current) (n : Nat) :
    id < (r.after n).builder.finish.count ∧
      (r.after n).builder.finish.node id = r.builder.doc.node id := by
  have keeps := h.keeps_after n
  have lt' := Nat.lt_of_lt_of_le lt keeps.count_le
  have left' : id ∉ (r.after n).builder.doc.path (r.after n).builder.current :=
    fun isOpen ↦ left (keeps.mem_path id lt isOpen)
  constructor
  · rwa [(Builder.retouched_finish _).count_eq]
  · rw [Builder.node_finish (h.after n).inStep.linked left', keeps.node_eq id lt left]

end Aimed

end Reading

/-- Behind any number of tokens, a node that is neither the current one nor around it is in every
respect what it is in the document. -/
theorem node_parse_of_left (text uri : Text) (mode : Mode) (n id : Nat) :
    let b := (Builder.start text uri mode).applyAll ((Scanner.tokenize text mode).take n)
    id < b.doc.count → id ∉ b.doc.path b.current →
      id < (Document.parse text uri mode).count ∧
        (Document.parse text uri mode).node id = b.doc.node id := by
  intro b lt left
  let r := (Reading.start text uri mode).after n
  have aimed : r.Aimed := (Reading.start_aimed text uri mode).after n
  have builder : r.builder = b :=
    congrArg Reading.builder (Reading.after_eq (Reading.start text uri mode) n)
  rw [← builder] at lt left ⊢
  obtain ⟨ahead, atEnd⟩ := r.exists_atEnd
  rw [← Reading.after_add] at atEnd
  rw [Reading.parse_eq_finish atEnd, Reading.after_add]
  exact aimed.node_finish lt left ahead

/-- An empty element is settled behind its tag, while the element around it is still open. -/
theorem node_parse_of_left_emptyTag :
    let text : Text := ['<', 'a', '>', '<', 'b', ' ', 'c', '=', '"', '1', '"', '/', '>', 'd', '<',
      '/', 'a', '>']
    let b := (Builder.start text [] .xml).applyAll ((Scanner.tokenize text .xml).take 10)
    b.doc.count = 3 ∧ b.doc.path b.current = [1, 0] ∧
      (Document.parse text [] .xml).node 2 = b.doc.node 2 := by
  intro text b
  have count : ((Builder.start text [] .xml).applyAll
      ((Scanner.tokenize text .xml).take 10)).doc.count = 3 := by decide +kernel
  have path : ((Builder.start text [] .xml).applyAll
      ((Scanner.tokenize text .xml).take 10)).doc.path
        ((Builder.start text [] .xml).applyAll ((Scanner.tokenize text .xml).take 10)).current =
          [1, 0] := by decide +kernel
  have left : 2 ∉ b.doc.path b.current := by
    rw [path]
    decide
  exact ⟨count, path,
    (node_parse_of_left text [] .xml 10 2 (Nat.lt_of_lt_of_eq (by decide) count.symm) left).2⟩

end TolerantXml
