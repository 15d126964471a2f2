import TolerantXml.Report.Json
import TolerantXml.Scanner.Stream
import TolerantXml.Tree.Outline

/-!
# Listings of tokens and outlines

A token is listed on one line or as a JSON object, and an outline as nested JSON objects.
-/

namespace TolerantXml

/-- Fills a text up with spaces on the left. -/
def padLeft (width : Nat) (text : Text) : Text :=
  List.replicate (width - text.length) ' ' ++ text

/-- Fills a text up with spaces on the right. -/
def padRight (width : Nat) (text : Text) : Text :=
  text ++ List.replicate (width - text.length) ' '

namespace Token

/-- A token on a line of its own, without the line break. -/
def line (token : Token) : Text :=
  padLeft 5 (toString token.start).toList ++ ['.', '.'] ++
    padRight 5 (toString token.stop).toList ++ ' ' :: token.kind.label.toList ++
    ' ' :: token.text.escaped

/-- A token as a JSON object. -/
def json (token : Token) : Json :=
  .ofMembers
    [("kind", .string token.kind.label.toList),
      ("span", .ofMembers [("start", .number token.start), ("end", .number token.stop)]),
      ("text", .string token.text)]

end Token

namespace Outline

mutual

/-- An outline as a JSON object. A node that has no name, or no children, has no such member. -/
def json : Outline → Json
  | .node entry children =>
    .ofMembers <|
      [("kind", .string entry.label.toList)] ++
      (entry.name.map fun name ↦ ("name", .string name)).toList ++
      [("start", .number entry.span.start), ("end", .number entry.span.stop),
        ("closed", .bool entry.closed)] ++
      match children with
      | [] => []
      | first :: rest => [("children", .array (json first :: jsonOfAll rest))]

/-- Some outlines as JSON objects. -/
def jsonOfAll : List Outline → List Json
  | [] => []
  | first :: rest => json first :: jsonOfAll rest

end

end Outline

end TolerantXml
