import TolerantXml.Mode
import TolerantXml.Position

/-!
# Command line arguments

The arguments name a command, the file that it is for, and options. Options and the file come in
any order; a value follows its option as the next argument or behind an equals sign; behind `--`
there are no options.
-/

namespace TolerantXml.Command

/-- A place that is asked for, by its offset or by its position. -/
inductive Place where
  | offset (offset : Nat)
  | position (position : Position)
  deriving DecidableEq, Repr

/-- What the program is asked to do. -/
inductive Request where
  /-- Name the version. -/
  | version
  /-- List the tokens of a file. -/
  | tokens (path : String) (mode : Mode) (json : Bool)
  /-- Outline the nodes of a file. -/
  | tree (path : String) (mode : Mode) (json : Bool)
  /-- Convert an offset into a position, or the reverse. -/
  | position (path : String) (place : Option Place)
  /-- Find the partner of a position in a tag name. -/
  | matchTag (path : String) (position : Position)
  deriving DecidableEq, Repr

/-- Why arguments make no request. -/
inductive UsageError where
  | missingCommand
  | unknownCommand (name : String)
  | unexpectedArgument (argument : String)
  | repeatedOption (option : String)
  | missingValue (option : String)
  | unexpectedValue (option : String)
  | invalidNumber (option value : String)
  | missingPath
  | missingOption (option : String)
  | conflictingOptions (first second : String)
  deriving DecidableEq, Repr

/-- The wording of an error. -/
def UsageError.message : UsageError → String
  | .missingCommand => "a command is required: tokens, tree, position or match-tag"
  | .unknownCommand name => "there is no command '" ++ name ++ "'"
  | .unexpectedArgument argument => "unexpected argument '" ++ argument ++ "'"
  | .repeatedOption option => "'" ++ option ++ "' may be given only once"
  | .missingValue option => "'" ++ option ++ "' needs a value"
  | .unexpectedValue option => "'" ++ option ++ "' takes no value"
  | .invalidNumber option value => "'" ++ value ++ "' is no number for '" ++ option ++ "'"
  | .missingPath => "a file is required"
  | .missingOption option => "'" ++ option ++ "' is required"
  | .conflictingOptions first second =>
    "'" ++ first ++ "' cannot be used with '" ++ second ++ "'"

/-- The commands. -/
inductive Name where
  | tokens
  | tree
  | position
  | matchTag
  deriving DecidableEq, Repr

/-- The command of some name. -/
def Name.ofString? : String → Option Name
  | "tokens" => some .tokens
  | "tree" => some .tree
  | "position" => some .position
  | "match-tag" => some .matchTag
  | _ => none

/-- The options. -/
inductive Flag where
  | verbose
  | dtd
  | json
  | offset
  | line
  | character
  deriving DecidableEq, Repr

namespace Flag

/-- An option as it is written. -/
def text : Flag → String
  | .verbose => "--verbose"
  | .dtd => "--dtd"
  | .json => "--json"
  | .offset => "--offset"
  | .line => "--line"
  | .character => "--character"

/-- Whether a number follows an option. -/
def takesNumber : Flag → Bool
  | .offset | .line | .character => true
  | .verbose | .dtd | .json => false

end Flag

/-- The options of a command. -/
def Name.flags : Name → List Flag
  | .tokens | .tree => [.verbose, .dtd, .json]
  | .position => [.verbose, .offset, .line, .character]
  | .matchTag => [.verbose, .line, .character]

/-- Reads a number below 2⁶⁴ in decimal digits, before which a plus sign may stand. -/
def number? (text : Text) : Option Nat :=
  let digits : Text := if text.head? = some '+' then text.drop 1 else text
  let value := digits.foldl (fun value c ↦ 10 * value + (c.toNat - '0'.toNat)) 0
  if digits ≠ [] ∧ digits.all Char.isDigit ∧ value < UInt64.size then some value else none

/-- The arguments of a command so far. -/
structure Given where
  /-- The options, each with its number if it takes one. -/
  flags : List (Flag × Option Nat)
  path : Option String
  deriving DecidableEq, Repr

namespace Given

/-- Whether an option was given. -/
def has (given : Given) (flag : Flag) : Bool := given.flags.any (·.1 == flag)

/-- The number of an option. -/
def number? (given : Given) (flag : Flag) : Option Nat :=
  (given.flags.find? (·.1 == flag)).bind (·.2)

/-- Takes an option, which may come only once. -/
def addFlag (given : Given) (flag : Flag) (value : Option Nat) : Except UsageError Given :=
  if given.has flag then .error (.repeatedOption flag.text)
  else .ok { given with flags := (flag, value) :: given.flags }

/-- Takes the number of an option. -/
def addNumber (given : Given) (flag : Flag) (value : String) : Except UsageError Given :=
  match Command.number? value.toList with
  | some number => given.addFlag flag (some number)
  | none => .error (.invalidNumber flag.text value)

/-- Takes the file, which may come only once. -/
def addPath (given : Given) (path : String) : Except UsageError Given :=
  match given.path with
  | some _ => .error (.unexpectedArgument path)
  | none => .ok { given with path := some path }

end Given

/-- What an argument is. -/
inductive Argument where
  /-- The mark behind which there are no options. -/
  | separator
  /-- An option by its name, and the value behind the equals sign. -/
  | long (name : String) (value : Option String)
  /-- Options by their letters. -/
  | short (letters : List Char)
  | plain
  deriving DecidableEq, Repr

/-- Tells what an argument is; a single dash is no option. -/
def Argument.ofString (argument : String) : Argument :=
  match argument.toList with
  | ['-', '-'] => .separator
  | '-' :: '-' :: rest =>
    let name := "--" ++ String.ofList (rest.takeWhile (· != '='))
    match rest.dropWhile (· != '=') with
    | [] => .long name none
    | _ :: value => .long name (some (String.ofList value))
  | '-' :: c :: rest => .short (c :: rest)
  | _ => .plain

/-- Takes the letters of one argument; the only letter is that of `--verbose`. -/
def Given.addLetters (given : Given) (argument : String) : List Char → Except UsageError Given
  | [] => .ok given
  | c :: letters =>
    if c = 'v' then do (← given.addFlag .verbose none).addLetters argument letters
    else .error (.unexpectedArgument argument)

/-- Takes the arguments of a command that has some options. -/
def Given.addAll (flags : List Flag) (given : Given) : List String → Except UsageError Given
  | [] => .ok given
  | argument :: rest =>
    match Argument.ofString argument with
    | .separator => rest.foldlM Given.addPath given
    | .plain => do (← given.addPath argument).addAll flags rest
    | .short letters => do (← given.addLetters argument letters).addAll flags rest
    | .long name value =>
      match flags.find? (·.text == name) with
      | none => .error (.unexpectedArgument argument)
      | some flag =>
        match flag.takesNumber, value, rest with
        | true, some value, rest => do (← given.addNumber flag value).addAll flags rest
        | true, none, value :: rest => do (← given.addNumber flag value).addAll flags rest
        | true, none, [] => .error (.missingValue name)
        | false, some _, _ => .error (.unexpectedValue name)
        | false, none, rest => do (← given.addFlag flag none).addAll flags rest

namespace Given

/-- The mode that is asked for. -/
def mode (given : Given) (path : String) : Mode :=
  if given.has .dtd then .dtd else Mode.ofUri path.toList

/-- The number of an option that has to be given. -/
def requiredNumber (given : Given) (flag : Flag) : Except UsageError Nat :=
  match given.number? flag with
  | some value => .ok value
  | none => .error (.missingOption flag.text)

/-- The position that is asked for. -/
def requiredPosition (given : Given) : Except UsageError Position := do
  return ⟨← given.requiredNumber .line, ← given.requiredNumber .character⟩

/-- The place that is asked for, if any is: an offset, or a line with a character. -/
def place? (given : Given) : Except UsageError (Option Place) :=
  match given.number? .offset with
  | some offset =>
    if given.has .line then .error (.conflictingOptions Flag.offset.text Flag.line.text)
    else if given.has .character then
      .error (.conflictingOptions Flag.offset.text Flag.character.text)
    else .ok (some (.offset offset))
  | none =>
    if given.has .line || given.has .character then do
      return some (.position (← given.requiredPosition))
    else .ok none

/-- The request that a command with its arguments makes. -/
def request (given : Given) (name : Name) : Except UsageError Request :=
  match given.path with
  | none => .error .missingPath
  | some path =>
    match name with
    | .tokens => .ok (.tokens path (given.mode path) (given.has .json))
    | .tree => .ok (.tree path (given.mode path) (given.has .json))
    | .position => do return .position path (← given.place?)
    | .matchTag => do return .matchTag path (← given.requiredPosition)

end Given

/-- What the letters before a command ask for: the version, or whether `--verbose` has been given
by now. -/
def leadingLetters (verbose : Bool) (argument : String) :
    List Char → Except UsageError (Option Bool)
  | [] => .ok (some verbose)
  | c :: letters =>
    if c = 'V' then .ok none
    else if c = 'v' then
      if verbose then .error (.repeatedOption Flag.verbose.text)
      else leadingLetters true argument letters
    else .error (.unexpectedArgument argument)

/-- The request of a whole command line, where `verbose` tells whether `--verbose` came before. It
may come once before the command and once behind it. -/
def requestAfter (verbose : Bool) : List String → Except UsageError Request
  | [] => .error .missingCommand
  | argument :: rest =>
    match Argument.ofString argument with
    | .separator =>
      .error (match rest with
        | [] => .missingCommand
        | next :: _ => .unexpectedArgument next)
    | .plain =>
      match Name.ofString? argument with
      | none => .error (.unknownCommand argument)
      | some name => do (← Given.addAll name.flags ⟨[], none⟩ rest).request name
    | .short letters => do
      match ← leadingLetters verbose argument letters with
      | none => return .version
      | some verbose => requestAfter verbose rest
    | .long name value =>
      if name = "--version" then
        if value.isSome then .error (.unexpectedValue name) else .ok .version
      else if name = Flag.verbose.text then
        if value.isSome then .error (.unexpectedValue name)
        else if verbose then .error (.repeatedOption name)
        else requestAfter true rest
      else .error (.unexpectedArgument argument)

/-- The request of a command line. -/
def request (arguments : List String) : Except UsageError Request := requestAfter false arguments

end TolerantXml.Command
