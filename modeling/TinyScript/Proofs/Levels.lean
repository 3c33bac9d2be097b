import TinyScript.Proofs.Shape

/-!
# Levels of evaluation

How many nodes are in evaluation at once while a tree is evaluated.  A
statement stands one level above the expressions and statements it holds;
blocks and alternatives take no level of their own.  The limits on brackets
and on heights of expressions bound the levels.
-/

namespace TinyScript

mutual

/-- The most levels that the evaluation of a statement opens. -/
def Stmt.levels : Stmt → Nat
  | .assign _ value _ => value.height + 1
  | .call _ args _ => TinyScript.tallest args + 1
  | .loop _ condition body otherwise _ =>
      max condition.height (max body.levels otherwise.levels) + 1
  | .branch b => b.levels + 1

def Block.levels : Block → Nat
  | .mk stmts _ => mostLevels stmts

def Branch.levels : Branch → Nat
  | .mk condition body otherwise _ => max condition.height (max body.levels otherwise.levels)

def Otherwise.levels : Otherwise → Nat
  | .nothing => 0
  | .block body => body.levels
  | .branch b => b.levels

def mostLevels : List Stmt → Nat
  | [] => 0
  | s :: ss => max s.levels (mostLevels ss)

end

mutual

/-- Every statement inside of another stands in a block, and every block in brackets. -/
theorem Stmt.levels_le : (s : Stmt) → s.levels ≤ s.brackets + s.tallest + 1
  | .assign target value span => by
      rw [Stmt.levels, Stmt.brackets, Stmt.tallest]
      omega
  | .call callee args span => by
      rw [Stmt.levels, Stmt.brackets, Stmt.tallest]
      omega
  | .loop kind condition body otherwise span => by
      have inside := body.levels_le
      have other := otherwise.levels_le
      rw [Stmt.levels, Stmt.brackets, Stmt.tallest]
      omega
  | .branch b => by
      have inside := b.levels_le
      rw [Stmt.levels, Stmt.brackets, Stmt.tallest]
      omega

theorem Block.levels_le : (b : Block) → b.levels ≤ b.brackets + b.tallest
  | .mk stmts span => by
      have inside := mostLevels_le stmts
      rw [Block.levels, Block.brackets, Block.tallest]
      omega

theorem Branch.levels_le : (b : Branch) → b.levels ≤ b.brackets + b.tallest
  | .mk condition body otherwise span => by
      have inside := body.levels_le
      have other := otherwise.levels_le
      rw [Branch.levels, Branch.brackets, Branch.tallest]
      omega

theorem Otherwise.levels_le : (o : Otherwise) → o.levels ≤ o.brackets + o.tallest
  | .nothing => Nat.zero_le _
  | .block body => body.levels_le
  | .branch b => b.levels_le

theorem mostLevels_le : (ss : List Stmt) → mostLevels ss ≤ mostBracketsOf ss + tallestOf ss + 1
  | [] => Nat.zero_le _
  | s :: ss => by
      have first := s.levels_le
      have others := mostLevels_le ss
      rw [mostLevels, mostBracketsOf, tallestOf]
      omega

end

/-- The levels of a well-shaped program: one for each open bracket and each level of an expression,
and one for the outermost statement. -/
theorem Program.WellShaped.levels_le {program : Program} (wellShaped : program.WellShaped) :
    mostLevels program.stmts ≤ Nesting.maxOpen + 1 + maxHeight := by
  have bounded := mostLevels_le program.stmts
  have low := wellShaped.low
  have shallow := wellShaped.shallow
  omega

end TinyScript
