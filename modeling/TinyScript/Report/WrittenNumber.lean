import TinyScript.Value.Decimal
import TinyScript.Value.Numeral

/-!
# Numbers of a document

A number of a document is kept as it is written.  It counts as a 32-bit number
only if it has neither sign nor point nor exponent.  Its size is taken from a
significand of 64 bits, filled with the digits in order as long as they fit,
and from a power of ten; the number is finite if the product of the two, each
rounded to a floating-point number, is finite.
-/

namespace TinyScript

/-- A number in decimal notation: the digits before and behind the point, and the exponent. -/
structure WrittenNumber where
  negative : Bool
  whole : List Char
  fraction : List Char
  exponent : Option Int
  deriving DecidableEq, Repr

namespace WrittenNumber

def significandEnd : Nat := 0x10000000000000000

/--
Append digits to a significand, up to the first one that does not fit, and
count the digits appended.
-/
def appendDigits (significand : Nat) : List Char → Nat × Nat
  | [] => (significand, 0)
  | c :: rest =>
      let next := 10 * significand + Numeral.digitValue c
      if next < significandEnd then
        let (filled, count) := appendDigits next rest
        (filled, count + 1)
      else (significand, 0)

/--
A number as a significand and a power of ten.  Digits before the point that are
left out raise the power; digits behind the point lower it if they are appended.
-/
def scaled (n : WrittenNumber) : Decimal :=
  let (significand, taken) := appendDigits 0 n.whole
  let (significand, places) := appendDigits significand n.fraction
  ⟨significand, n.exponent.getD 0 + (n.whole.length - taken : Nat) - places⟩

def maxPower : Int := 308

def isFinite (n : WrittenNumber) : Bool :=
  let d := n.scaled
  if d.exponent ≤ 0 then true
  else if d.exponent ≤ maxPower then
    (Numeral.nearest d.digits 0 * Numeral.nearest 1 d.exponent).isFinite
  else d.digits == 0

def word? (n : WrittenNumber) : Option UInt32 :=
  let value := Numeral.natOf n.whole
  if n.negative ∨ n.fraction ≠ [] ∨ n.exponent ≠ none ∨ 0x100000000 ≤ value then none
  else some (UInt32.ofNat value)

end WrittenNumber

end TinyScript
