import TolerantXml.Text.Escaped

/-!
# JSON

JSON values, written with one member or element on a line. An object keeps its members in order.
-/

namespace TolerantXml

/-- A JSON value. Of an object, the names and the values of its members are kept apart. -/
inductive Json where
  | bool (value : Bool)
  | number (value : Nat)
  | string (value : Text)
  | array (elements : List Json)
  | object (names : List Text) (values : List Json)

namespace Json

/-- An object, from its members. -/
def ofMembers (members : List (String × Json)) : Json :=
  .object (members.map fun (name, _) ↦ name.toList) (members.map (·.2))

/-- A character as it stands in a JSON string. -/
def escapeChar (c : Char) : Text :=
  if c = Text.doubleQuote then ['\\', c]
  else if c = '\\' then ['\\', c]
  else if c = '\x08' then ['\\', 'b']
  else if c = '\x0c' then ['\\', 'f']
  else if c = '\n' then ['\\', 'n']
  else if c = '\r' then ['\\', 'r']
  else if c = '\t' then ['\\', 't']
  else if c.toNat < 16 then "\\u000".toList ++ Text.hexDigits c.toNat
  else if c.toNat < 32 then "\\u00".toList ++ Text.hexDigits c.toNat
  else [c]

/-- A text as a JSON string. -/
def quoted (text : Text) : Text := Text.quote Text.doubleQuote (text.flatMap escapeChar)

/-- A line break, and the indentation of a depth. -/
def newLine (depth : Nat) : Text := '\n' :: List.replicate (2 * depth) ' '

/-- Sets items between brackets, each on a line of its own, if there are any. -/
def bracketed (opening closing : Char) (depth : Nat) : List Text → Text
  | [] => [opening, closing]
  | first :: rest =>
    opening :: newLine (depth + 1) ++ first ++
      rest.flatMap (fun item ↦ ',' :: newLine (depth + 1) ++ item) ++
      newLine depth ++ [closing]

mutual

/-- The written form of a value at a depth. -/
def renderAt (depth : Nat) : Json → Text
  | .bool value => if value then "true".toList else "false".toList
  | .number value => (toString value).toList
  | .string value => quoted value
  | .array elements => bracketed '[' ']' depth (renderAll (depth + 1) elements)
  | .object names values =>
    bracketed Text.openBrace Text.closeBrace depth <|
      (names.zip (renderAll (depth + 1) values)).map fun (name, value) ↦
        quoted name ++ [':', ' '] ++ value

/-- The written forms of some values at a depth. -/
def renderAll (depth : Nat) : List Json → List Text
  | [] => []
  | first :: rest => renderAt depth first :: renderAll depth rest

end

/-- The written form of a value. -/
def render (value : Json) : Text := renderAt 0 value

end Json

end TolerantXml
