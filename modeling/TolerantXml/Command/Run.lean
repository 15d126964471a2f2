import TolerantXml.Command.Arguments
import TolerantXml.Report.Listing
import TolerantXml.Tree.Parse
import TolerantXml.Tree.TagPartner

/-!
# Running commands

A command reads one file and answers with text for the output, or says that there is nothing to
find. The exit code is 0 for an answer, 1 where the file or the place in it does not exist, and 2
for arguments that make no request.
-/

namespace TolerantXml.Command

/-- What is found under a path. -/
inductive FileContent where
  | missing
  | unreadable (reason : String)
  | bytes (bytes : ByteArray)

/-- Why a request has no answer. -/
inductive Failure where
  | fileNotFound (path : String)
  | unreadable (path reason : String)
  /-- No place was asked for. -/
  | noPlace
  | location (error : LocationError)
  deriving DecidableEq, Repr

/-- The wording of a failure. -/
def Failure.message : Failure → String
  | .fileNotFound path => "Error: file not found: " ++ path
  | .unreadable path reason => "Error reading " ++ path ++ ": " ++ reason
  | .noPlace => "Error: pass --offset, or --line with --character"
  | .location error => "Error: " ++ error.message

/-- The answer to a request. -/
inductive Answer where
  /-- Text for the output. -/
  | output (text : Text)
  /-- No tag name stands at a position, or it has no partner. -/
  | noPartner (position : Position)
  deriving DecidableEq, Repr

/-- An answer of one line. -/
def Answer.line (text : String) : Answer := .output (text.toList ++ ['\n'])

/-- What a run of the program leaves behind. -/
structure Outcome where
  exitCode : UInt8
  /-- The text for the output. -/
  output : Text
  /-- The line for the person who runs the program, if there is one. -/
  message : Option String
  deriving DecidableEq, Repr

/-- The name and the version of the program. -/
def versionText : String := "xmlls 0.3.0"

/-- A position as it is written. -/
def positionText (position : Position) : String :=
  toString position.line ++ ":" ++ toString position.character

/-- How a run ends with an answer. -/
def Outcome.ofAnswer : Answer → Outcome
  | .output text => ⟨0, text, none⟩
  | .noPartner position => ⟨0, [], some ("No matching tag at " ++ positionText position)⟩

/-- How a run ends for a request. -/
def Outcome.ofRequest : Except Failure Answer → Outcome
  | .ok answer => .ofAnswer answer
  | .error failure => ⟨1, [], some failure.message⟩

/-- How a run ends for arguments that make no request. -/
def Outcome.ofUsage (error : UsageError) : Outcome := ⟨2, [], some ("error: " ++ error.message)⟩

/-- A place in a text, turned into the other way to name it. -/
def Place.convert (text : Text) : Place → Except LocationError String
  | .offset o => (text.positionAt o).map positionText
  | .position p => (text.offsetAt p).map toString

namespace Request

/-- The file that a request is for. -/
def path? : Request → Option String
  | .version => none
  | .tokens path _ _ | .tree path _ _ | .position path _ | .matchTag path _ => some path

/-- The answer to a request about a text. -/
def answer (text : Text) : Request → Except Failure Answer
  | .version => .ok (.line versionText)
  | .tokens _ mode json =>
    let tokens := Scanner.tokenize text mode
    .ok <| .output <|
      if json then (Json.array (tokens.map Token.json)).render ++ ['\n']
      else tokens.flatMap fun token ↦ token.line ++ ['\n']
  | .tree path mode json =>
    let outline := (Document.parse text path.toList mode).outline
    .ok (.output (if json then outline.json.render ++ ['\n'] else outline.render))
  | .position _ none => .error .noPlace
  | .position _ (some place) => (place.convert text).mapError .location |>.map .line
  | .matchTag path place =>
    match (Document.parse text path.toList (.ofUri path.toList)).tagPartner place with
    | .ok (some partner) => .ok (.line (positionText partner))
    | .ok none => .ok (.noPartner place)
    | .error error => .error (.location error)

/-- The answer to a request about what is found under its path. -/
def answerFile (request : Request) (path : String) : FileContent → Except Failure Answer
  | .missing => .error (.fileNotFound path)
  | .unreadable reason => .error (.unreadable path reason)
  | .bytes bytes =>
    match String.fromUTF8? bytes with
    | some text => request.answer text.toList
    | none => .error (.unreadable path "stream did not contain valid UTF-8")

end Request

/-- Runs the program on its arguments, where `read` finds files. -/
def run {m : Type → Type} [Monad m] (read : String → m FileContent) (arguments : List String) :
    m Outcome :=
  match request arguments with
  | .error error => pure (.ofUsage error)
  | .ok request =>
    match request.path? with
    | none => pure (.ofRequest (request.answer []))
    | some path => do return .ofRequest (request.answerFile path (← read path))

end TolerantXml.Command
