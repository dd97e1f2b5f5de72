import EventTaxonomy.Cli.Run

/-!
# The program

Reads what a command line asks for, runs it, and writes both outputs.
-/

namespace EventTaxonomy

namespace Cli

/-- The failure of reading a file. -/
def ReadFailure.ofError : IO.Error → ReadFailure
  | .noFileOrDirectory _ _ _ => .notFound
  | .inappropriateType _ code _ => if code = 20 then .notDirectory else .isDirectory
  | e => .other (toString e)

/-- The text of a file. -/
def readFile (path : String) : IO (Except ReadFailure String) := do
  try
    return textOfBytes (← IO.FS.readBinFile path)
  catch e =>
    return .error (.ofError e)

/-- All bytes of a stream. -/
partial def readStream (stream : IO.FS.Stream) (bytes : ByteArray) : IO ByteArray := do
  let more ← stream.read 65536
  if more.isEmpty then return bytes
  readStream stream (bytes ++ more)

/-- The files that an invocation may read. -/
def Invocation.paths : Invocation → List String
  | .validate options => options.source.path.toList ++ options.events.toList
  | .rules source _ => source.path.toList
  | _ => []

/-- The invocation may read standard input. -/
def Invocation.readsInput : Invocation → Bool
  | .validate options => options.events.isNone
  | _ => false

/-- What an invocation may read. -/
def readEnvironment (invocation : Invocation) : IO Environment := do
  let files ← invocation.paths.mapM fun path => return (path, ← readFile path)
  let input ← if invocation.readsInput then readStream (← IO.getStdin) .empty else pure .empty
  return {
    read := fun path => (lookup path files).getD (.error .notFound)
    stdin := textOfBytes input
    logSetting := ← IO.getEnv "RUST_LOG" }

end Cli

end EventTaxonomy

open EventTaxonomy Cli in
/-- Runs the command line. -/
def main (arguments : List String) : IO UInt32 := do
  let invocation := Invocation.ofArguments arguments
  let outcome := invocation.run (← readEnvironment invocation)
  (← IO.getStdout).putStr outcome.stdout
  (← IO.getStderr).putStr outcome.stderr
  return outcome.code.toUInt32
