import TinyScript.Program.Basic
import TinyScript.Value.Basic
import TinyScript.Value.Numeral

/-!
# Operators on values

Two integers give an integer or an overflow.  As soon as one operand is a
float, the other number is rounded to a float.  A text is joined to the text
of anything by `+`.  Equality is defined on all values, order on numbers.
-/

namespace TinyScript

/-- The float nearest to an integer; of two equally near ones the even one. -/
def floatOfInt (n : Int64) : Float :=
  let magnitude := (UInt64.ofNat n.toInt.natAbs).toFloat
  if n < 0 then -magnitude else magnitude

namespace BinOp

/-- What an arithmetic operator does to integers, exactly, and to floats. -/
def functions? : BinOp → Option ((Int → Int → Int) × (Float → Float → Float))
  | add => some ((· + ·), (· + ·))
  | sub => some ((· - ·), (· - ·))
  | mul => some ((· * ·), (· * ·))
  | eq | notEq | greater | less => none

def arithmetic (op : BinOp) (left right : Value) : Except EvalError Value :=
  match op.functions? with
  | none => .error (.internalError ("'" ++ op.symbol ++ "' is not an additive operator"))
  | some (onInt, onFloat) =>
      match left, right with
      | .integer a, .integer b =>
          match int64? (onInt a.toInt b.toInt) with
          | some n => .ok (.integer n)
          | none => .error (.overflow (left.display ++ " " ++ op.symbol ++ " " ++ right.display ++
              " does not fit in 64 bits"))
      | .float a, .float b => .ok (.float (onFloat a b))
      | .integer a, .float b => .ok (.float (onFloat (floatOfInt a) b))
      | .float a, .integer b => .ok (.float (onFloat a (floatOfInt b)))
      | _, _ =>
          if op = add ∧ (left.isText ∨ right.isText) then
            .ok (.text (left.display ++ right.display))
          else
            .error (.typeMismatch ("cannot apply '" ++ op.symbol ++ "' to " ++ left.typeName ++
              " and " ++ right.typeName))

end BinOp

def floatOrder (a b : Float) : Option Ordering :=
  if a < b then some .lt
  else if a == b then some .eq
  else if b < a then some .gt
  else none

namespace Value

/-- The order of two numbers; the outer option is empty if a value is not a number. -/
def order? : Value → Value → Option (Option Ordering)
  | integer a, integer b => some (some (compare a.toInt b.toInt))
  | float a, float b => some (floatOrder a b)
  | integer a, float b => some (floatOrder (floatOfInt a) b)
  | float a, integer b => some (floatOrder a (floatOfInt b))
  | _, _ => none

end Value

namespace BinOp

def ordered (op : BinOp) (wanted : Ordering) (left right : Value) : Except EvalError Value :=
  match left.order? right with
  | some o => .ok (.boolean (o == some wanted))
  | none => .error (.typeMismatch ("cannot compare " ++ left.typeName ++ " and " ++
      right.typeName ++ " with '" ++ op.symbol ++ "'"))

def comparison (op : BinOp) (left right : Value) : Except EvalError Value :=
  match op with
  | eq => .ok (.boolean (left.same right))
  | notEq => .ok (.boolean (!left.same right))
  | greater => op.ordered .gt left right
  | less => op.ordered .lt left right
  | _ => .error (.internalError ("'" ++ op.symbol ++ "' is not a comparison operator"))

end BinOp

end TinyScript
