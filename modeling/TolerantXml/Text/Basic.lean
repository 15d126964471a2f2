/-!
# Texts

A text is a list of characters, and every offset into it counts the bytes of its UTF-8 form.
-/

namespace TolerantXml

/-- A text is its list of characters. -/
abbrev Text := List Char

/-- The number of bytes in the UTF-8 form of a text. -/
def Text.byteSize (text : Text) : Nat := text.foldr (fun c size ↦ c.utf8Size + size) 0

namespace Text

@[simp] theorem byteSize_nil : byteSize [] = 0 := rfl

@[simp] theorem byteSize_cons (c : Char) (text : Text) :
    byteSize (c :: text) = c.utf8Size + byteSize text := rfl

@[simp] theorem byteSize_append (first second : Text) :
    byteSize (first ++ second) = byteSize first + byteSize second := by
  induction first with
  | nil => simp
  | cons c first ih => simp [ih, Nat.add_assoc]

@[simp] theorem byteSize_reverse (text : Text) : byteSize text.reverse = byteSize text := by
  induction text with
  | nil => rfl
  | cons c text ih => simp [ih, Nat.add_comm]

/-- Only the empty text has no bytes, because a character has at least one. -/
theorem byteSize_eq_zero {text : Text} : byteSize text = 0 ↔ text = [] := by
  cases text with
  | nil => simp
  | cons c text =>
    have := c.utf8Size_pos
    simp only [byteSize_cons]
    constructor
    · intro h; omega
    · intro h; cases h

/-- Two ways to cut one text at the same offset are the same cut. -/
theorem append_inj_of_byteSize {a b c d : Text} (h : a ++ b = c ++ d)
    (size : byteSize a = byteSize c) : a = c ∧ b = d := by
  induction a generalizing c with
  | nil =>
    have : c = [] := byteSize_eq_zero.1 (by simpa using size.symm)
    subst this
    exact ⟨rfl, h⟩
  | cons x a ih =>
    cases c with
    | nil =>
      have := x.utf8Size_pos
      simp only [byteSize_cons, byteSize_nil] at size
      omega
    | cons y c =>
      simp only [List.cons_append, List.cons.injEq] at h
      obtain ⟨rfl, h⟩ := h
      simp only [byteSize_cons, Nat.add_left_cancel_iff] at size
      obtain ⟨rfl, rfl⟩ := ih h size
      exact ⟨rfl, rfl⟩

end Text

end TolerantXml
