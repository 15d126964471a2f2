import TolerantXml.Command.Run

/-!
# The program

Reads the file, prints the answer, and exits with its code.
-/

namespace TolerantXml.Command

/-- What is found under a path in the file system. -/
def readFile (path : String) : IO FileContent := do
  try
    return .bytes (← IO.FS.readBinFile path)
  catch
    | .noFileOrDirectory .. | .inappropriateType (some _) .. => return .missing
    | .inappropriateType none code details =>
      return .unreadable (details ++ " (os error " ++ toString code ++ ")")
    | error => return .unreadable (toString error)

end TolerantXml.Command

open TolerantXml.Command in
/-- Runs the program. -/
def main (arguments : List String) : IO UInt32 := do
  let outcome ← run readFile arguments
  IO.print (String.ofList outcome.output)
  match outcome.message with
  | some message => IO.eprintln message
  | none => pure ()
  return outcome.exitCode.toUInt32
