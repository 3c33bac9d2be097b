import TinyScript.Source.Span

/-!
# Programs

The tree of a script.  Expressions and statements carry the span of the text
they were read from; a literal keeps its text as it was written, and turning
it into a value is left to evaluation.  One type of operators serves both
binary nodes, so a tree built by a host may hold an operator that its node
does not support.
-/

namespace TinyScript

structure Ident where
  name : String
  span : Span
  deriving DecidableEq, Repr

inductive LiteralKind where
  | integer
  | float
  | text
  | boolean
  | null
  deriving DecidableEq, Repr

/-- A literal as written, string delimiters included. -/
structure Literal where
  kind : LiteralKind
  text : String
  deriving DecidableEq, Repr

inductive BinOp where
  | add
  | sub
  | mul
  | eq
  | notEq
  | greater
  | less
  deriving DecidableEq, Repr

namespace BinOp

def symbol : BinOp → String
  | .add => "+"
  | .sub => "-"
  | .mul => "*"
  | .eq => "=="
  | .notEq => "!="
  | .greater => ">"
  | .less => "<"

def isArithmetic : BinOp → Bool
  | .add | .sub | .mul => true
  | .eq | .notEq | .greater | .less => false

end BinOp

/-- The two loops: one runs while its condition holds, the other until it holds. -/
inductive LoopKind where
  | whileTrue
  | untilTrue
  deriving DecidableEq, Repr

namespace LoopKind

def keyword : LoopKind → String
  | .whileTrue => "while"
  | .untilTrue => "until"

/-- Whether a loop goes on after its condition gave `condition`. -/
def continues : LoopKind → Bool → Bool
  | .whileTrue, condition => condition
  | .untilTrue, condition => !condition

end LoopKind

inductive Expr where
  | const (literal : Literal) (span : Span)
  | ident (name : String) (span : Span)
  | call (callee : Ident) (args : List Expr) (span : Span)
  | additive (left : Expr) (op : BinOp) (right : Expr) (span : Span)
  | comparison (left : Expr) (op : BinOp) (right : Expr) (span : Span)
  | paren (inner : Expr) (span : Span)

namespace Expr

def span : Expr → Span
  | const _ span => span
  | ident _ span => span
  | call _ _ span => span
  | additive _ _ _ span => span
  | comparison _ _ _ span => span
  | paren _ span => span

/-- The binary node of an operator, over the smallest region that holds both operands. -/
def binary (left : Expr) (op : BinOp) (right : Expr) : Expr :=
  let span := left.span.merge right.span
  if op.isArithmetic then additive left op right span
  else comparison left op right span

end Expr

mutual

inductive Stmt where
  | assign (target : Ident) (value : Expr) (span : Span)
  | call (callee : Ident) (args : List Expr) (span : Span)
  | loop (kind : LoopKind) (condition : Expr) (body : Block) (otherwise : Otherwise) (span : Span)
  | branch (branch : Branch)

inductive Block where
  | mk (stmts : List Stmt) (span : Span)

inductive Branch where
  | mk (condition : Expr) (body : Block) (otherwise : Otherwise) (span : Span)

/-- What follows the block of a loop or branch: nothing, a block, or a further branch. -/
inductive Otherwise where
  | nothing
  | block (body : Block)
  | branch (branch : Branch)

end

namespace Block

def stmts : Block → List Stmt
  | mk stmts _ => stmts

def span : Block → Span
  | mk _ span => span

end Block

namespace Branch

def span : Branch → Span
  | mk _ _ _ span => span

end Branch

namespace Stmt

def span : Stmt → Span
  | assign _ _ span => span
  | call _ _ span => span
  | loop _ _ _ _ span => span
  | branch b => b.span

end Stmt

structure Program where
  stmts : List Stmt
  span : Span

end TinyScript
