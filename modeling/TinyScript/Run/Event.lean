import TinyScript.Program.Basic
import TinyScript.Value.Basic

/-!
# Events

The log of a run.  An event has a level, a message and named fields, all of
them texts.
-/

namespace TinyScript

inductive Event where
  | parsed (file : String) (statements : Nat)
  | evaluating (statements : Nat)
  | assigned (name : String) (value : Value)
  | called (function : String) (args : Nat)
  | loopFinished (kind : LoopKind) (iterations : Nat)
  | finished (steps : Nat)
  | aborted (steps : Nat) (error : EvalError)
  deriving DecidableEq

namespace Event

/-- The level of an event: what happens to a whole script, or within it. -/
def level : Event → String
  | parsed _ _ | evaluating _ | finished _ | aborted _ _ => "DEBUG"
  | assigned _ _ | called _ _ | loopFinished _ _ => "TRACE"

def message : Event → String
  | parsed _ _ => "parsed program"
  | evaluating _ => "evaluating program"
  | assigned _ _ => "assign"
  | called _ _ => "call"
  | loopFinished _ _ => "loop finished"
  | finished _ => "program finished"
  | aborted _ _ => "program aborted"

def fields : Event → List (String × String)
  | parsed file statements => [("file", file), ("statements", toString statements)]
  | evaluating statements => [("statements", toString statements)]
  | assigned name value => [("name", name), ("value", value.display)]
  | called function args => [("function", function), ("args", toString args)]
  | loopFinished kind iterations =>
      [("keyword", kind.keyword), ("iterations", toString iterations)]
  | finished steps => [("steps", toString steps)]
  | aborted steps error => [("steps", toString steps), ("error", error.message)]

end Event

end TinyScript
