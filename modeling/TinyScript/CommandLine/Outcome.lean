import TinyScript.CommandLine.Arguments
import TinyScript.CommandLine.FileTree
import TinyScript.Program.Dump
import TinyScript.Reading.Parse
import TinyScript.Report.Diagnostic
import TinyScript.Run.Evaluate

/-!
# Running a script from the command line

A run reads the script, shows its tree if asked to, and evaluates it with the
builtins alone.  It ends with what it wrote, what it reported and an exit
status.
-/

namespace TinyScript

def noHost : Host Unit where
  invoke _ _ sink state := ⟨.ok none, sink, state⟩
  extends_sink _ _ sink _ := .refl sink

structure Outcome where
  stdout : ByteArray := .empty
  stderr : String := ""
  exitCode : UInt8 := 0

/-- A script is read from a path, or from the standard input under a name of its own. -/
def sourceOf (path : String) (content : Except ReadError ByteArray) : Except ScriptError Source :=
  match content >>= textOf with
  | .ok text => .ok ⟨if path = "-" then "<stdin>" else path, text⟩
  | .error e => .error (.unreadable path e.message)

def report (json : Bool) (e : ScriptError) : String :=
  (if json then e.diagnostic.json else e.diagnostic.render) ++ "\n"

/--
What evaluating a program writes, and the error that stops it, with the place
of the error.  A loop that outlasts the bound on its rounds ends the run
without an error.
-/
def evaluate (limits : Limits) (source : Source) (program : Program) :
    ByteArray × Option ScriptError :=
  match evalProgram { host := noHost, limits } program { host := () } with
  | .ok () s => (s.sink.written, none)
  | .error .unfinished s => (s.sink.written, none)
  | .error (.failed e) s =>
      let line := s.errorSpan.bind fun span => source.line? span.start.line
      (s.sink.written, some (.eval source.name e s.errorSpan line))

def runScript (args : Arguments) (path : String) (content : Except ReadError ByteArray) : Outcome :=
  let stopped (stdout : ByteArray) (shown : String) (e : ScriptError) : Outcome :=
    { stdout, stderr := shown ++ report args.json e, exitCode := e.exitCode }
  match sourceOf path content with
  | .error e => stopped .empty "" e
  | .ok source =>
      match source.parse with
      | .error e => stopped .empty "" (.parse e)
      | .ok program =>
          let shown := if args.debugParse then program.dump ++ "\n" else ""
          match evaluate args.limits source program with
          | (stdout, none) => { stdout, stderr := shown }
          | (stdout, some e) => stopped stdout shown e

end TinyScript
