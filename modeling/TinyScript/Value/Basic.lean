import TinyScript.Run.EvalError
import TinyScript.Value.Decimal

/-!
# Values

The values of scripts.  A function value has a name, which is only shown, and
a handle, which is what makes it the same or another function.  Values of
different kinds are never equal, and a float that is no number equals itself.
-/

namespace TinyScript

/-- Which function a function value denotes: the builtin, or one of the host's. -/
inductive Handle where
  | write
  | host (index : Nat)
  deriving DecidableEq, Repr

structure Native where
  name : String
  handle : Handle
  deriving DecidableEq, Repr

inductive Value where
  | integer (n : Int64)
  | float (x : Float)
  | text (s : String)
  | boolean (b : Bool)
  | null
  | native (f : Native)
  deriving DecidableEq

namespace Value

def typeName : Value → String
  | integer _ => "integer"
  | float _ => "float"
  | text _ => "string"
  | boolean _ => "boolean"
  | null => "null"
  | native _ => "function"

def isText : Value → Bool
  | text _ => true
  | _ => false

def display : Value → String
  | integer n => toString n.toInt
  | float x => floatText x
  | text s => s
  | boolean b => if b then "true" else "false"
  | null => "null"
  | native f => "<native fn " ++ f.name ++ ">"

/-- Equality of values: the same kind and the same content, functions by their handles. -/
def same : Value → Value → Bool
  | integer a, integer b => a == b
  | float a, float b => a == b || (a.isNaN && b.isNaN)
  | text a, text b => a == b
  | boolean a, boolean b => a == b
  | null, null => true
  | native f, native g => f.handle == g.handle
  | _, _ => false

def truth? : Value → Option Bool
  | boolean b => some b
  | _ => none

def notBoolean (v : Value) : String := "expected boolean, got " ++ v.typeName

def toBool (v : Value) : Except EvalError Bool :=
  match v.truth? with
  | some b => .ok b
  | none => .error (.notBoolean v.notBoolean)

end Value

end TinyScript
