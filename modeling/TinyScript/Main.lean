import TinyScript.CommandLine.Outcome

/-!
# The command

Reads the arguments and the script, runs it, and passes on what the run leaves
behind.
-/

namespace TinyScript

def readContent (path : String) : IO (Except ReadError ByteArray) := do
  if path = "-" then
    return .ok (← (← IO.getStdin).readBinToEnd)
  try
    return .ok (← IO.FS.readBinFile path)
  catch
    | .noFileOrDirectory .. => return .error .notFound
    | .inappropriateType _ code _ =>
        return .error (if code = 21 then .isDirectory else .notDirectory)
    | .invalidArgument _ 36 _ => return .error .nameTooLong
    | e => return .error (.other (toString e))

end TinyScript

open TinyScript in
def main (args : List String) : IO UInt32 := do
  match (Arguments.parse? args).bind fun a => a.file.map (a, ·) with
  | none =>
      IO.eprintln "usage: tinyscript [--debug-parse] [--json] [--max-steps N] [--max-depth N] FILE"
      return 2
  | some (a, path) =>
      let outcome := runScript a path (← readContent path)
      let stdout ← IO.getStdout
      stdout.write outcome.stdout
      stdout.flush
      IO.eprint outcome.stderr
      return outcome.exitCode.toUInt32
