import TolerantXml.Text.Cursor

/-!
# Slices

A text can be cut at a byte offset exactly if that is a character boundary, so a slice between two
offsets exists exactly between character boundaries in order (`Text.slice?_eq_some_iff`).
-/

namespace TolerantXml

namespace Text

/-- Splits a text at a byte offset, if that is a character boundary of it. -/
def splitAt? (text : Text) (offset : Nat) : Option (Text × Text) :=
  let cursor := (Cursor.atStart text).seek offset
  if cursor.offset = offset then some (cursor.before.reverse, cursor.rest) else none

/-- A text splits at exactly the byte sizes of its prefixes. -/
theorem splitAt?_eq_some_iff {text first second : Text} {offset : Nat} :
    splitAt? text offset = some (first, second) ↔
      text = first ++ second ∧ first.byteSize = offset := by
  obtain ⟨passed, ahead, rfl, eq, le, far⟩ := Cursor.seekFrom_split [] 0 offset text
  simp only [Nat.zero_add, Nat.zero_le, forall_const] at le far
  simp only [splitAt?, Cursor.seek, Cursor.atStart, eq, Nat.zero_add, List.append_nil,
    List.reverse_reverse]
  constructor
  · intro h
    split at h
    next boundary =>
      simp only [Option.some.injEq, Prod.mk.injEq] at h
      obtain ⟨rfl, rfl⟩ := h
      exact ⟨rfl, boundary⟩
    next => cases h
  · rintro ⟨h, rfl⟩
    have size : passed.byteSize = first.byteSize := by
      apply Nat.le_antisymm le
      rcases Nat.lt_or_ge passed.byteSize first.byteSize with lt | ge
      · rcases List.append_eq_append_iff.1 h with ⟨more, rfl, rfl⟩ | ⟨more, rfl, rfl⟩
        · cases more with
          | nil => simp
          | cons c more =>
            have := far c (by simp)
            simp only [byteSize_append, byteSize_cons] at this ⊢
            omega
        · simp only [byteSize_append] at lt
          omega
      · exact ge
    obtain ⟨rfl, rfl⟩ := append_inj_of_byteSize h size
    simp

/-- The part of a text between two byte offsets, if both are character boundaries in order. -/
def slice? (text : Text) (start stop : Nat) : Option Text :=
  if start ≤ stop then do
    let (_, rest) ← splitAt? text start
    let (part, _) ← splitAt? rest (stop - start)
    return part
  else none

/-- A slice is the middle of a cut of the text into three parts. -/
theorem slice?_eq_some_iff {text part : Text} {start stop : Nat} :
    slice? text start stop = some part ↔
      ∃ first last, text = first ++ part ++ last ∧ first.byteSize = start ∧
        start + part.byteSize = stop := by
  constructor
  · intro h
    rw [slice?] at h
    split at h
    next ordered =>
      cases h₁ : splitAt? text start with
      | none => simp [h₁] at h
      | some cut =>
        obtain ⟨first, rest⟩ := cut
        cases h₂ : splitAt? rest (stop - start) with
        | none => simp [h₁, h₂] at h
        | some cut =>
          obtain ⟨middle, last⟩ := cut
          simp only [h₁, h₂, Option.bind_eq_bind, Option.bind_some, Option.pure_def,
            Option.some.injEq] at h
          subst h
          obtain ⟨rfl, size⟩ := splitAt?_eq_some_iff.1 h₁
          obtain ⟨rfl, size'⟩ := splitAt?_eq_some_iff.1 h₂
          exact ⟨first, last, by simp, size, by omega⟩
    next => cases h
  · rintro ⟨first, last, rfl, rfl, rfl⟩
    have h₁ : splitAt? (first ++ part ++ last) first.byteSize = some (first, part ++ last) :=
      splitAt?_eq_some_iff.2 ⟨by simp, rfl⟩
    have h₂ : splitAt? (part ++ last) (first.byteSize + part.byteSize - first.byteSize) =
        some (part, last) :=
      splitAt?_eq_some_iff.2 ⟨rfl, by omega⟩
    simp only [slice?, Nat.le_add_right, ↓reduceIte, h₁, h₂, Option.bind_eq_bind,
      Option.bind_some, Option.pure_def]

end Text

end TolerantXml
