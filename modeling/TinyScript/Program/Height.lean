import TinyScript.Program.Basic

/-!
# Heights of expressions

Every operator, parenthesis and call adds one level to the tallest expression
below it.  Measuring a tree visits operands before the node above them and
left before right; it returns the height, or stops at the first node that
stands above the limit.
-/

namespace TinyScript

def maxHeight : Nat := 256

/-- One level above `below`, or the region of the node that would stand too high. -/
def levelAbove (below : Nat) (span : Span) : Except Span Nat :=
  if maxHeight ≤ below then .error span else .ok (below + 1)

mutual

/-- The height of an expression, or the first node of it that stands too high. -/
def Expr.measure : Expr → Except Span Nat
  | .const _ _ => .ok 1
  | .ident _ _ => .ok 1
  | .call _ args span => do levelAbove (← measureAll args) span
  | .additive left _ right span => do
      let l ← left.measure
      let r ← right.measure
      levelAbove (max l r) span
  | .comparison left _ right span => do
      let l ← left.measure
      let r ← right.measure
      levelAbove (max l r) span
  | .paren inner span => do levelAbove (← inner.measure) span

def measureAll : List Expr → Except Span Nat
  | [] => .ok 0
  | e :: es => do
      let h ← e.measure
      let t ← measureAll es
      return max h t

end

mutual

def Stmt.measure : Stmt → Except Span Unit
  | .assign _ value _ => do discard value.measure
  | .call _ args _ => do discard (measureAll args)
  | .loop _ condition body otherwise _ => do
      discard condition.measure
      body.measure
      otherwise.measure
  | .branch b => b.measure

def Block.measure : Block → Except Span Unit
  | .mk stmts _ => measureStmts stmts

def Branch.measure : Branch → Except Span Unit
  | .mk condition body otherwise _ => do
      discard condition.measure
      body.measure
      otherwise.measure

def Otherwise.measure : Otherwise → Except Span Unit
  | .nothing => .ok ()
  | .block body => body.measure
  | .branch b => b.measure

def measureStmts : List Stmt → Except Span Unit
  | [] => .ok ()
  | s :: ss => do
      s.measure
      measureStmts ss

end

def Program.measure (program : Program) : Except Span Unit := measureStmts program.stmts

end TinyScript
