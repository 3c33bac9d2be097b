/-!
# Reading numbers

Integers are an optional sign and digits, and fit in 64 bits.  Floating-point
numbers have an optional sign, digits with an optional point, and an optional
exponent, or are one of the words for infinity and for no number; the nearest
representable number is taken.  Digits are the ASCII digits.
-/

namespace TinyScript

def int64? (n : Int) : Option Int64 :=
  if -0x8000000000000000 ≤ n ∧ n < 0x8000000000000000 then some (Int64.ofInt n) else none

namespace Numeral

inductive Fault where
  | malformed
  | outOfRange
  deriving DecidableEq, Repr

def digitValue (c : Char) : Nat := c.toNat - '0'.toNat

def natOf (digits : List Char) : Nat := digits.foldl (fun n c => 10 * n + digitValue c) 0

/--
Read digits behind the value of those in front of them.  The first character
that is no digit, or that leads out of range, decides the fault.
-/
def integerFrom (negative : Bool) (value : Int64) : List Char → Except Fault Int64
  | [] => .ok value
  | c :: rest =>
      if c.isDigit then
        let digit : Int := digitValue c
        match int64? (10 * value.toInt + if negative then -digit else digit) with
        | some value => integerFrom negative value rest
        | none => .error .outOfRange
      else .error .malformed

def integer : List Char → Except Fault Int64
  | [] => .error .malformed
  | ['-'] => .error .malformed
  | ['+'] => .error .malformed
  | '-' :: digits => integerFrom true 0 digits
  | '+' :: digits => integerFrom false 0 digits
  | digits => integerFrom false 0 digits

def signed : List Char → Bool × List Char
  | '-' :: rest => (true, rest)
  | '+' :: rest => (false, rest)
  | rest => (false, rest)

def exponent? : List Char → Option Int
  | [] => some 0
  | mark :: rest =>
      if mark = 'e' ∨ mark = 'E' then
        let (negative, digits) := signed rest
        if digits.isEmpty ∨ ¬ digits.all Char.isDigit then none
        else some (if negative then -(natOf digits : Int) else natOf digits)
      else none

/-- The floating-point number nearest to `digits · 10 ^ exponent`. -/
def nearest (digits : Nat) (exponent : Int) : Float :=
  Float.ofScientific digits (exponent < 0) exponent.natAbs

def magnitude? (text : List Char) : Option Float :=
  let lower := String.ofList (text.map Char.toLower)
  if lower = "inf" ∨ lower = "infinity" then some (Float.ofBits 0x7ff0000000000000)
  else if lower = "nan" then some (Float.ofBits 0x7ff8000000000000)
  else
    let (whole, rest) := text.span Char.isDigit
    let (fraction, rest) := match rest with
      | '.' :: rest => rest.span Char.isDigit
      | rest => ([], rest)
    if whole.isEmpty ∧ fraction.isEmpty then none
    else (exponent? rest).map fun e => nearest (natOf (whole ++ fraction)) (e - fraction.length)

def float? (text : List Char) : Option Float :=
  let (negative, text) := signed text
  (magnitude? text).map fun x => if negative then -x else x

end Numeral

end TinyScript
