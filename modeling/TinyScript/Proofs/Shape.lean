import TinyScript.Program.Height
import TinyScript.Program.Precedence
import TinyScript.Reading.Lexeme
import TinyScript.Reading.Nesting

/-!
# Well-shaped programs

Which trees are trees of scripts.  Names and literals have texts of their
kinds, an operator stands in the node of its kind, and operands that are not
in parentheses bind more tightly than the operator above them.  The height of
an expression and the number of brackets open at one place are limited.
-/

namespace TinyScript

/-- A name: a letter or underscore with word characters behind it, but no keyword. -/
def IsName (name : String) : Prop :=
  (∃ c more, name.toList = c :: more ∧ Lexeme.isWordStart c = true ∧
    ∀ d ∈ more, Lexeme.isWordChar d = true) ∧
  name ∉ Lexeme.keywords

def IsDigits (text : List Char) : Prop := text ≠ [] ∧ ∀ d ∈ text, d.isDigit = true

/-- Whether the text of a literal is one of its kind. -/
def Literal.IsLexical (literal : Literal) : Prop :=
  match literal.kind with
  | .integer => IsDigits literal.text.toList
  | .float => ∃ whole fraction, IsDigits whole ∧ IsDigits fraction ∧
      literal.text.toList = whole ++ '.' :: fraction
  | .text => ∃ quote body, (quote = '"' ∨ quote = '\'') ∧ quote ∉ body ∧
      literal.text.toList = quote :: (body ++ [quote])
  | .boolean => literal.text = "true" ∨ literal.text = "false"
  | .null => literal.text = "null"

theorem Literal.IsLexical.nonempty {literal : Literal} (lexical : literal.IsLexical) :
    literal.text.toList ≠ [] := by
  obtain ⟨kind, text⟩ := literal
  cases kind with
  | integer => exact lexical.1
  | float =>
      obtain ⟨whole, fraction, _, _, same⟩ := lexical
      simp [same]
  | text =>
      obtain ⟨quote, body, _, _, same⟩ := lexical
      simp [same]
  | boolean =>
      rcases lexical with same | same <;> simp_all
  | null => simp_all [Literal.IsLexical]

/-- How tightly an expression holds together: as its operator, or more tightly than any operator. -/
def Expr.binding : Expr → Nat
  | .additive _ op _ _ => op.precedence
  | .comparison _ op _ _ => op.precedence
  | .const _ _ | .ident _ _ | .call _ _ _ | .paren _ _ => 3

/-- The operands of an operator bind tightly enough to need no parentheses. -/
def Groups (left : Expr) (op : BinOp) (right : Expr) : Prop :=
  op.precedence ≤ left.binding ∧ op.precedence < right.binding

mutual

/-- The shape that reading gives to an expression. -/
def Expr.Shaped : Expr → Prop
  | .const literal _ => literal.IsLexical
  | .ident name _ => IsName name
  | .call callee args _ => IsName callee.name ∧ ShapedExprs args
  | .additive left op right _ =>
      op.isArithmetic = true ∧ Groups left op right ∧ left.Shaped ∧ right.Shaped
  | .comparison left op right _ =>
      op.isArithmetic = false ∧ Groups left op right ∧ left.Shaped ∧ right.Shaped
  | .paren inner _ => inner.Shaped

def ShapedExprs : List Expr → Prop
  | [] => True
  | e :: es => e.Shaped ∧ ShapedExprs es

end

theorem shapedExprs_iff (es : List Expr) : ShapedExprs es ↔ ∀ e ∈ es, e.Shaped := by
  induction es with
  | nil => simp [ShapedExprs]
  | cons e es ih => rw [ShapedExprs, ih, List.forall_mem_cons]

mutual

/-- The height of an expression: a node stands one level above the tallest below it. -/
def Expr.height : Expr → Nat
  | .const _ _ => 1
  | .ident _ _ => 1
  | .call _ args _ => tallest args + 1
  | .additive left _ right _ => max left.height right.height + 1
  | .comparison left _ right _ => max left.height right.height + 1
  | .paren inner _ => inner.height + 1

def tallest : List Expr → Nat
  | [] => 0
  | e :: es => max e.height (tallest es)

end

mutual

/-- The most brackets that are open at one place of an expression. -/
def Expr.brackets : Expr → Nat
  | .const _ _ => 0
  | .ident _ _ => 0
  | .call _ args _ => mostBrackets args + 1
  | .additive left _ right _ => max left.brackets right.brackets
  | .comparison left _ right _ => max left.brackets right.brackets
  | .paren inner _ => inner.brackets + 1

def mostBrackets : List Expr → Nat
  | [] => 0
  | e :: es => max e.brackets (mostBrackets es)

end

mutual

def Stmt.Shaped : Stmt → Prop
  | .assign target value _ => IsName target.name ∧ value.Shaped
  | .call callee args _ => IsName callee.name ∧ ShapedExprs args
  | .loop _ condition body otherwise _ => condition.Shaped ∧ body.Shaped ∧ otherwise.Shaped
  | .branch b => b.Shaped

def Block.Shaped : Block → Prop
  | .mk stmts _ => ShapedStmts stmts

def Branch.Shaped : Branch → Prop
  | .mk condition body otherwise _ => condition.Shaped ∧ body.Shaped ∧ otherwise.Shaped

def Otherwise.Shaped : Otherwise → Prop
  | .nothing => True
  | .block body => body.Shaped
  | .branch b => b.Shaped

def ShapedStmts : List Stmt → Prop
  | [] => True
  | s :: ss => s.Shaped ∧ ShapedStmts ss

end

theorem shapedStmts_iff (ss : List Stmt) : ShapedStmts ss ↔ ∀ s ∈ ss, s.Shaped := by
  induction ss with
  | nil => simp [ShapedStmts]
  | cons s ss ih => rw [ShapedStmts, ih, List.forall_mem_cons]

mutual

def Stmt.tallest : Stmt → Nat
  | .assign _ value _ => value.height
  | .call _ args _ => TinyScript.tallest args
  | .loop _ condition body otherwise _ =>
      max condition.height (max body.tallest otherwise.tallest)
  | .branch b => b.tallest

def Block.tallest : Block → Nat
  | .mk stmts _ => tallestOf stmts

def Branch.tallest : Branch → Nat
  | .mk condition body otherwise _ =>
      max condition.height (max body.tallest otherwise.tallest)

def Otherwise.tallest : Otherwise → Nat
  | .nothing => 0
  | .block body => body.tallest
  | .branch b => b.tallest

def tallestOf : List Stmt → Nat
  | [] => 0
  | s :: ss => max s.tallest (tallestOf ss)

end

mutual

def Stmt.brackets : Stmt → Nat
  | .assign _ value _ => value.brackets
  | .call _ args _ => mostBrackets args + 1
  | .loop _ condition body otherwise _ =>
      max condition.brackets (max body.brackets otherwise.brackets)
  | .branch b => b.brackets

def Block.brackets : Block → Nat
  | .mk stmts _ => mostBracketsOf stmts + 1

def Branch.brackets : Branch → Nat
  | .mk condition body otherwise _ =>
      max condition.brackets (max body.brackets otherwise.brackets)

def Otherwise.brackets : Otherwise → Nat
  | .nothing => 0
  | .block body => body.brackets
  | .branch b => b.brackets

def mostBracketsOf : List Stmt → Nat
  | [] => 0
  | s :: ss => max s.brackets (mostBracketsOf ss)

end

/-- The programs that scripts can be read as. -/
structure Program.WellShaped (program : Program) : Prop where
  /-- Names, literals, operators and operands are as reading leaves them. -/
  shaped : ShapedStmts program.stmts
  /-- No expression is too tall. -/
  low : tallestOf program.stmts ≤ maxHeight
  /-- Nowhere are too many brackets open. -/
  shallow : mostBracketsOf program.stmts ≤ Nesting.maxOpen

end TinyScript
