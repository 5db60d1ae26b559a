import TypeStrip.CommandLine

/-!
# The program

* `main`   reads the command line and its input, and prints the outcome.
-/

namespace TypeStrip

def PathFault.ofError : IO.Error → PathFault
  | .inappropriateType _ code _ => if code = 21 then .isDirectory else .notDirectory
  | .invalidArgument _ _ _ => .nameTooLong
  | _ => .notFound

def readFile (path : String) : IO (Except PathFault Bytes) := do
  if path.contains '\x00' then return .error .nulCharacter
  try
    let bytes ← IO.FS.readBinFile path
    return .ok bytes.toList
  catch e =>
    return .error (.ofError e)

end TypeStrip

open TypeStrip

def main (args : List String) : IO UInt32 := do
  let stdout ← IO.getStdout
  let stderr ← IO.getStderr
  let outcome ← match Arguments.parse (args.map String.toList) with
    | .error stop => pure (CommandLine.decline stop)
    | .ok a => do
      let source ←
        if a.file = ['-'] then do
          let bytes ← (← IO.getStdin).readBinToEnd
          pure (CommandLine.decode bytes.toList)
        else do
          let content ← readFile (String.ofList a.file)
          pure (CommandLine.fileText content)
      let now ← IO.monoMsNow
      pure (CommandLine.respond a (Text.decimal now) source)
  match outcome with
  | .exit code out err =>
    stderr.putStr (String.ofList err)
    stdout.putStr (String.ofList out)
    return code.toUInt32
  | .crash message =>
    stderr.putStrLn (String.ofList message)
    return 1
