/-!
# Decimal text of floating-point numbers

A finite number is a natural mantissa times a power of two.  The numbers that
round to it form an interval around it, and its decimal text is taken from
the coarsest decimal grid that has a point in this interval: no text with
fewer digits reads back as the same number.  Of two grid points in the
interval the nearer one is taken.
-/

namespace TinyScript

/-- The number `mantissa · 2 ^ exponent`. -/
structure Dyadic where
  mantissa : Nat
  exponent : Int
  deriving DecidableEq, Repr

structure Decimal where
  digits : Nat
  exponent : Int
  deriving DecidableEq, Repr

namespace Dyadic

def minExponent : Int := -1074

/-- The mantissas of normal numbers begin here; below it the bits of a number hold a fraction. -/
def leadingBit : Nat := 0x10000000000000

def ofFloat (x : Float) : Dyadic :=
  let bits := x.toBits.toNat
  let fraction := bits % leadingBit
  let biased : Nat := bits / leadingBit % 0x800
  if biased = 0 then ⟨fraction, minExponent⟩
  else ⟨fraction + leadingBit, minExponent + (biased - 1 : Nat)⟩

def ratioPow (base : Nat) (e : Int) : Nat × Nat :=
  (Nat.pow base e.toNat, Nat.pow base (-e).toNat)

/--
The distance from a number to the lower end of its rounding interval, in
quarters of the unit in its last place.  Below a power of two the numbers are
twice as close.
-/
def lowerQuarters (x : Dyadic) : Nat :=
  if x.mantissa = leadingBit ∧ minExponent < x.exponent then 1 else 2

/--
The point of the grid of multiples of `10 ^ k` that stands for a number: the
nearer one of its two neighbours on the grid among those in its rounding
interval, and the upper one if they are equally near.  The ends of the interval
belong to it if the mantissa is even.
-/
def gridPoint? (x : Dyadic) (k : Int) : Option Nat :=
  let (un, ud) := ratioPow 2 (x.exponent - 2)
  let (gn, gd) := ratioPow 10 k
  let unit := un * gd
  let grid := gn * ud
  let value := 4 * x.mantissa * unit
  let low := (4 * x.mantissa - x.lowerQuarters) * unit
  let high := (4 * x.mantissa + 2) * unit
  let inside := fun (n : Nat) =>
    if x.mantissa % 2 = 0 then low ≤ n * grid ∧ n * grid ≤ high
    else low < n * grid ∧ n * grid < high
  let below := value / grid
  let above := below + 1
  if inside below ∧ ¬ (inside above ∧ above * grid - value ≤ value - below * grid) then some below
  else if inside above then some above
  else none

def firstGridPoint (x : Dyadic) : Nat → Int → Decimal
  | 0, k => ⟨0, k⟩
  | tries + 1, k =>
      match x.gridPoint? k with
      | some n => ⟨n, k⟩
      | none => firstGridPoint x tries (k - 1)

/--
The decimal with the fewest digits that reads back as a positive number.  The
first grid is coarser than any point of the interval, and seventeen digits
always suffice, so the search ends within the tries it is given.
-/
def shortest (x : Dyadic) : Decimal :=
  let bits : Int := x.mantissa.log2 + 1 + x.exponent
  x.firstGridPoint 24 ((bits + 1) * 30103 / 100000 + 1)

end Dyadic

namespace Decimal

/-- Decimals from `0.0001` up to sixteen digits before the point are written out. -/
def isPositional (pointAt : Int) : Bool := -4 < pointAt && pointAt ≤ 16

/--
The text of a positive decimal: written out with at least one digit on each
side of the point, or with one digit before the point and an exponent.
-/
def text (d : Decimal) : String :=
  let digits := Nat.toDigits 10 d.digits
  let pointAt := digits.length + d.exponent
  if isPositional pointAt then
    if pointAt ≤ 0 then
      "0." ++ String.ofList (List.replicate (-pointAt).toNat '0' ++ digits)
    else
      let whole := digits.take pointAt.toNat ++ List.replicate d.exponent.toNat '0'
      let fraction := digits.drop pointAt.toNat
      String.ofList whole ++ "." ++ (if fraction.isEmpty then "0" else String.ofList fraction)
  else
    let mantissa := match digits with
      | first :: second :: others => first :: '.' :: second :: others
      | few => few
    String.ofList mantissa ++ "e" ++ toString (pointAt - 1)

end Decimal

def floatText (x : Float) : String :=
  if x.isNaN then "NaN"
  else
    let sign := if 0x8000000000000000 ≤ x.toBits then "-" else ""
    if x.isInf then sign ++ "inf"
    else if x == 0 then sign ++ "0.0"
    else sign ++ (Dyadic.ofFloat x).shortest.text

end TinyScript
