import TolerantXml.Proofs.Tree.Nested
import TolerantXml.Proofs.Tree.Stages

/-!
# What a token records

A token writes into one node at most (`Builder.subject`, `Builder.rewrite`), and adds one at most
(`Builder.added`). That is all that becomes of what nodes stand for (`Builder.records_apply`); where
they end, and which of them are open and closed, is another matter.
-/

namespace TolerantXml

namespace Builder

theorem rewrite_comment (b : Builder) (token : Token) (data : CharacterData) :
    b.rewrite token (.comment data) =
      .comment (if token.kind = .comment then { data with content := some token.span }
        else data) := by
  unfold rewrite
  cases token.kind <;> rfl

/-! ### Tokens as changes of nodes -/

/-- What becomes of what nodes stand for: one old node changes, and new ones are of some kind. -/
structure Records (subject : Nat) (change : NodeKind → NodeKind) (added : NodeKind)
    (b b' : Builder) : Prop where
  old : ∀ id < b.doc.count, (b'.doc.node id).kind =
    if id = subject then change (b.doc.node id).kind else (b.doc.node id).kind
  new : ∀ id, b.doc.count ≤ id → id < b'.doc.count → (b'.doc.node id).kind = added

variable {b : Builder} {token : Token}

/-- A token writes into a node or adds one. -/
theorem records_apply (linked : b.Linked) (token : Token) :
    Records (b.subject token) (b.rewrite token) (b.added token) b (b.apply token) := by
  obtain ⟨moved, written, grown, stages⟩ := hasStages_apply linked token
  have count := (stages.returned (frame_rewrite b token) linked).doc.count_eq
  have grownLinked := stages.grown_linked (frame_rewrite b token) linked
  constructor
  · intro id lt
    rw [(stages.grows.node_eq grownLinked (count ▸ lt)).1,
      stages.kind_grown (frame_rewrite b token) linked lt]
  · exact fun id ge lt ↦ stages.kind_eq id (count ▸ ge) lt

/-- What holds of every node behind a token: it is kept where nothing is written, and holds of what
is written and of what is added. -/
theorem forall_kind_apply {P P' : NodeKind → Prop} (linked : b.Linked)
    (kept : ∀ kind, P kind → P' kind) (rewritten : ∀ kind, P kind → P' (b.rewrite token kind))
    (added : P' (b.added token)) (outside : P' .document)
    (before : ∀ id, P (b.doc.node id).kind) (id : Nat) :
    P' ((b.apply token).doc.node id).kind := by
  have records := records_apply linked token
  rcases Nat.lt_or_ge id b.doc.count with old | new
  · rw [records.old id old]
    split
    · exact rewritten _ (before id)
    · exact kept _ (before id)
  · rcases Nat.lt_or_ge id (b.apply token).doc.count with lt | ge
    · rw [records.new id new lt]
      exact added
    · rw [Document.node_of_count_le ge]
      exact outside

/-! ### The first and the last builder -/

theorem kind_setStop (b : Builder) (stop place id : Nat) :
    ((b.setStop stop place).doc.node id).kind = (b.doc.node id).kind ∧
      ((b.setStop stop place).doc.node id).closed = (b.doc.node id).closed := by
  unfold setStop
  split
  · exact ⟨rfl, rfl⟩
  · rcases Nat.lt_or_ge place b.doc.count with lt | ge
    · rw [Document.node_modify _ lt]
      split
      · next same => rw [same]; exact ⟨rfl, rfl⟩
      · exact ⟨rfl, rfl⟩
    · rw [Document.modify_of_count_le ge]
      exact ⟨rfl, rfl⟩

theorem kind_endAll (b : Builder) (stop : Nat) (ids : List Nat) (id : Nat) :
    ((b.endAll stop ids).doc.node id).kind = (b.doc.node id).kind ∧
      ((b.endAll stop ids).doc.node id).closed = (b.doc.node id).closed := by
  induction ids generalizing b with
  | nil => exact ⟨rfl, rfl⟩
  | cons place ids ih =>
    obtain ⟨kind, closed⟩ := kind_setStop b stop place id
    obtain ⟨kind', closed'⟩ := ih (b.setStop stop place)
    exact ⟨kind'.trans kind, closed'.trans closed⟩

/-- In front of the text there is the document, and in a text of declarations a document type. -/
theorem kind_start (text uri : Text) (mode : Mode) (id : Nat) :
    ((start text uri mode).doc.node id).kind = .document ∨
      mode = .dtd ∧ id = 1 ∧ ((start text uri mode).doc.node id).kind = .doctype {} := by
  rcases Nat.lt_or_ge id (start text uri mode).doc.count with lt | ge
  · cases mode with
    | xml =>
      obtain rfl : id = 0 := Nat.lt_one_iff.1 lt
      exact .inl rfl
    | dtd =>
      have lt : id < 2 := lt
      obtain rfl | rfl : id = 0 ∨ id = 1 := by omega
      · exact .inl rfl
      · exact .inr ⟨rfl, rfl, rfl⟩
  · rw [Document.node_of_count_le ge]
    exact .inl rfl

/-- The end of the text closes nothing. -/
theorem kind_finish (b : Builder) (id : Nat) :
    (b.finish.node id).kind = (b.doc.node id).kind ∧
      (b.finish.node id).closed = (b.doc.node id).closed := by
  rw [finish_eq]
  exact kind_endAll b _ _ id

/-! ### Tokens one after another -/

/-- What tokens bring about one after another, where each may bring about one thing. -/
def collect {α : Type} (what : Builder → Token → Option α) (b : Builder) : List Token → List α
  | [] => []
  | token :: tokens => (what b token).toList ++ (b.apply token).collect what tokens

section Collect

variable {α : Type} (what : Builder → Token → Option α) (b : Builder)

theorem collect_append (first second : List Token) :
    b.collect what (first ++ second) =
      b.collect what first ++ (b.applyAll first).collect what second := by
  induction first generalizing b with
  | nil => rfl
  | cons token first ih =>
    rw [List.cons_append, collect, ih, collect, List.append_assoc]
    rfl

theorem collect_concat (tokens : List Token) (token : Token) :
    b.collect what (tokens ++ [token]) =
      b.collect what tokens ++ (what (b.applyAll tokens) token).toList := by
  rw [collect_append, collect, collect, List.append_nil]

theorem collect_subset {first tokens : List Token} (inside : first <+: tokens) :
    b.collect what first ⊆ b.collect what tokens := by
  obtain ⟨ahead, rfl⟩ := inside
  rw [collect_append]
  exact List.subset_append_left _ _

end Collect

end Builder

end TolerantXml
