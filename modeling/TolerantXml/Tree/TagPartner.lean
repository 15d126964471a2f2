import TolerantXml.Tree.Lookup

/-!
# Partner tags

An element with two tags has its name in both. A place in one of these names has a partner in the
other one, at the same distance from the start of the name.
-/

namespace TolerantXml

/-- The offset in the other tag name of an element, for an offset in one of its tag names or
right behind it. -/
def Element.partnerOffset (element : Element) (offset : Nat) : Option Nat :=
  match element with
  | { tagName := some name, startTagOpen := some startTag, endTagOpen := some endTag,
      selfClosed := false, .. } =>
    let startName := startTag + 1
    let endName := endTag + 2
    if startName ≤ offset ∧ offset ≤ startName + name.byteSize then
      some (endName + (offset - startName))
    else if endName ≤ offset ∧ offset ≤ endName + name.byteSize then
      some (startName + (offset - endName))
    else none
  | _ => none

/-- The position that a position in a tag name has its partner at, if there is one. -/
def Document.tagPartner (doc : Document) (position : Position) :
    Except LocationError (Option Position) := do
  let offset ← doc.text.offsetAt position
  match (doc.node (doc.nodeAt offset)).kind.element?.bind (·.partnerOffset offset) with
  | none => return none
  | some partner => return some (← doc.text.positionAt partner)

end TolerantXml
