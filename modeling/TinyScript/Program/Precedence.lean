import TinyScript.Program.Basic

/-!
# Operator precedence

An expression is read as a flat sequence `x op y op z …`.  Resolving it groups
the operands of tighter operators first, and operators of one precedence from
the left.  Each pass folds the runs of one precedence and leaves the operators
of the others in place, so three passes, tightest first, leave one operand.
-/

namespace TinyScript

/-- How tightly an operator binds; multiplication binds tightest, comparison loosest. -/
def BinOp.precedence : BinOp → Nat
  | .eq | .notEq | .greater | .less => 0
  | .add | .sub => 1
  | .mul => 2

namespace Precedence

/-- Fold every maximal run of operators of one precedence, from the left. -/
def collapse {α : Type} (level : Nat) (combine : α → BinOp → α → α) :
    α → List (BinOp × α) → α × List (BinOp × α)
  | x, [] => (x, [])
  | x, (op, y) :: links =>
      if op.precedence = level then
        collapse level combine (combine x op y) links
      else
        let (y', links') := collapse level combine y links
        (x, (op, y') :: links')

/-- Group a flat sequence of operands by the precedence of the operators between them. -/
def resolve {α : Type} (combine : α → BinOp → α → α) (first : α) (links : List (BinOp × α)) : α :=
  let products := collapse 2 combine first links
  let sums := collapse 1 combine products.1 products.2
  (collapse 0 combine sums.1 sums.2).1

end Precedence

end TinyScript
