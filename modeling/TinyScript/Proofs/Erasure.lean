import TinyScript.Program.Basic

/-!
# Trees without their places

Erasing a tree puts the same empty span at every node and at every name, and
leaves everything else.  Two trees with one erasure differ only in where their
parts were read.
-/

namespace TinyScript

def Ident.erase (ident : Ident) : Ident := ⟨ident.name, default⟩

mutual

def Expr.erase : Expr → Expr
  | .const literal _ => .const literal default
  | .ident name _ => .ident name default
  | .call callee args _ => .call callee.erase (eraseExprs args) default
  | .additive left op right _ => .additive left.erase op right.erase default
  | .comparison left op right _ => .comparison left.erase op right.erase default
  | .paren inner _ => .paren inner.erase default

def eraseExprs : List Expr → List Expr
  | [] => []
  | e :: es => e.erase :: eraseExprs es

end

mutual

def Stmt.erase : Stmt → Stmt
  | .assign target value _ => .assign target.erase value.erase default
  | .call callee args _ => .call callee.erase (eraseExprs args) default
  | .loop kind condition body otherwise _ =>
      .loop kind condition.erase body.erase otherwise.erase default
  | .branch b => .branch b.erase

def Block.erase : Block → Block
  | .mk stmts _ => .mk (eraseStmts stmts) default

def Branch.erase : Branch → Branch
  | .mk condition body otherwise _ => .mk condition.erase body.erase otherwise.erase default

def Otherwise.erase : Otherwise → Otherwise
  | .nothing => .nothing
  | .block body => .block body.erase
  | .branch b => .branch b.erase

def eraseStmts : List Stmt → List Stmt
  | [] => []
  | s :: ss => s.erase :: eraseStmts ss

end

theorem eraseExprs_eq (es : List Expr) : eraseExprs es = es.map Expr.erase := by
  induction es with
  | nil => rfl
  | cons e es ih => rw [eraseExprs, ih, List.map_cons]

theorem eraseStmts_eq (ss : List Stmt) : eraseStmts ss = ss.map Stmt.erase := by
  induction ss with
  | nil => rfl
  | cons s ss ih => rw [eraseStmts, ih, List.map_cons]

def Program.erase (program : Program) : Program := ⟨eraseStmts program.stmts, default⟩

/-- A binary node keeps its operator and its operands. -/
theorem Expr.erase_binary (left right : Expr) (op : BinOp) :
    (Expr.binary left op right).erase =
      if op.isArithmetic then .additive left.erase op right.erase default
      else .comparison left.erase op right.erase default := by
  unfold Expr.binary
  dsimp only
  split <;> rfl

end TinyScript
