/-!
# Evaluation errors

Every error ends the run.  An error has a kind, by which programs tell errors
apart, and a message, which people read.
-/

namespace TinyScript

inductive ErrorKind where
  | undefinedVariable
  | notCallable
  | typeMismatch
  | notBoolean
  | internalError
  | overflow
  | stepLimitExceeded
  | stackOverflow
  | output
  deriving DecidableEq, Repr

namespace ErrorKind

def all : List ErrorKind :=
  [.undefinedVariable, .notCallable, .typeMismatch, .notBoolean, .internalError, .overflow,
   .stepLimitExceeded, .stackOverflow, .output]

def name : ErrorKind → String
  | .undefinedVariable => "undefined_variable"
  | .notCallable => "not_callable"
  | .typeMismatch => "type_mismatch"
  | .notBoolean => "not_boolean"
  | .internalError => "internal_error"
  | .overflow => "overflow"
  | .stepLimitExceeded => "step_limit_exceeded"
  | .stackOverflow => "stack_overflow"
  | .output => "output"

def ofName? (name : String) : Option ErrorKind := all.find? (·.name == name)

end ErrorKind

/-- Evaluation errors.  Host functions may raise any of them, with any details. -/
inductive EvalError where
  /-- A name is read or called and has no binding. -/
  | undefinedVariable (name : String)
  /-- A name is called and bound to something else than a function. -/
  | notCallable (detail : String)
  /-- An operator does not support its operands. -/
  | typeMismatch (detail : String)
  /-- A condition is not a boolean. -/
  | notBoolean (detail : String)
  /-- A tree holds what reading a script never produces. -/
  | internalError (detail : String)
  /-- An integer does not fit in 64 bits. -/
  | overflow (detail : String)
  /-- More nodes were visited than the limit allows. -/
  | stepLimitExceeded (limit : Nat)
  /-- Nodes nest deeper than the limit allows. -/
  | stackOverflow (limit : Nat)
  /-- The sink refused output. -/
  | output (detail : String)
  deriving DecidableEq, Repr

namespace EvalError

def kind : EvalError → ErrorKind
  | undefinedVariable _ => .undefinedVariable
  | notCallable _ => .notCallable
  | typeMismatch _ => .typeMismatch
  | notBoolean _ => .notBoolean
  | internalError _ => .internalError
  | overflow _ => .overflow
  | stepLimitExceeded _ => .stepLimitExceeded
  | stackOverflow _ => .stackOverflow
  | output _ => .output

def message : EvalError → String
  | undefinedVariable name => "undefined variable: " ++ name
  | notCallable detail => "not callable: " ++ detail
  | typeMismatch detail => "type mismatch: " ++ detail
  | notBoolean detail => "not a boolean: " ++ detail
  | internalError detail => "internal error: " ++ detail
  | overflow detail => "integer overflow: " ++ detail
  | stepLimitExceeded limit => "step limit of " ++ toString limit ++ " exceeded"
  | stackOverflow limit => "stack overflow: nesting deeper than " ++ toString limit ++ " levels"
  | output detail => "output error: " ++ detail

def ofKind (kind : ErrorKind) (detail : String) (limit : Nat) : EvalError :=
  match kind with
  | .undefinedVariable => undefinedVariable detail
  | .notCallable => notCallable detail
  | .typeMismatch => typeMismatch detail
  | .notBoolean => notBoolean detail
  | .internalError => internalError detail
  | .overflow => overflow detail
  | .stepLimitExceeded => stepLimitExceeded limit
  | .stackOverflow => stackOverflow limit
  | .output => output detail

end EvalError

end TinyScript
