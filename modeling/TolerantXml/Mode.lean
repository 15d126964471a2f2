import TolerantXml.Text.Basic

/-!
# Modes

A text is read as an XML document or as a document type definition that stands alone. The name of
a file tells which.
-/

namespace TolerantXml

/-- How a text is read. -/
inductive Mode where
  /-- As element content. -/
  | xml
  /-- As declarations only. -/
  | dtd
  deriving DecidableEq, Repr, Inhabited

namespace Mode

/-- The file name extensions of document type definitions. -/
def dtdExtensions : List Text := [['d', 't', 'd'], ['e', 'n', 't'], ['m', 'o', 'd']]

/-- The last part of the path in a uri, which a query or a fragment does not belong to. -/
def fileName (uri : Text) : Text :=
  let path := uri.takeWhile fun c ↦ c != '?' && c != '#'
  (path.reverse.takeWhile fun c ↦ c != '/' && c != '\\').reverse

/-- What follows the last dot of a file name, if it has one. -/
def extension? (name : Text) : Option Text :=
  if '.' ∈ name then some (name.reverse.takeWhile (· != '.')).reverse else none

/-- The mode of a text by its uri: that of a document type definition if the extension is one of
theirs, in any letter case. -/
def ofUri (uri : Text) : Mode :=
  if (extension? (fileName uri)).any fun ext ↦ ext.map Char.toLower ∈ dtdExtensions then .dtd
  else .xml

end Mode

end TolerantXml
