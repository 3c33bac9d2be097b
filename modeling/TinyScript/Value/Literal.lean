import TinyScript.Program.Basic
import TinyScript.Value.Basic
import TinyScript.Value.Numeral

/-!
# Values of literals

Every literal that a script can hold denotes a value, integers beyond 64 bits
apart.  A tree built by a host may hold a literal whose text does not fit its
kind; this is an internal error.
-/

namespace TinyScript

def unquoted? : List Char → Option (List Char)
  | [] => none
  | first :: rest =>
      if (first = '"' ∨ first = '\'') ∧ rest.getLast? = some first then some rest.dropLast
      else none

def Literal.value (literal : Literal) : Except EvalError Value :=
  let text := literal.text
  match literal.kind with
  | .integer =>
      match Numeral.integer text.toList with
      | .ok n => .ok (.integer n)
      | .error .outOfRange => .error (.overflow ("integer literal " ++ text ++ " is out of range"))
      | .error .malformed => .error (.internalError ("malformed integer literal '" ++ text ++ "'"))
  | .float =>
      match Numeral.float? text.toList with
      | some x => .ok (.float x)
      | none => .error (.internalError ("malformed float literal '" ++ text ++ "'"))
  | .text =>
      match unquoted? text.toList with
      | some s => .ok (.text (String.ofList s))
      | none => .error (.internalError ("malformed string literal " ++ text))
  | .boolean =>
      if text = "true" then .ok (.boolean true)
      else if text = "false" then .ok (.boolean false)
      else .error (.internalError ("malformed boolean literal '" ++ text ++ "'"))
  | .null => .ok .null

end TinyScript
