import TinyScript.Reading.Recognizer
import TinyScript.Program.Basic

/-!
# Renderings

A program is written as the sequence of its tokens, with blanks and comments
in front of every token and behind the last one.  A keyword and a token that
could be read as its continuation are kept apart; all other tokens may touch.
-/

namespace TinyScript

/-- The tokens of scripts; the brackets, the comma, the semicolon and the equals sign are marks. -/
inductive Token where
  | name (name : String)
  | literal (literal : Literal)
  | keyword (word : String)
  | operator (op : BinOp)
  | mark (c : Char)
  deriving DecidableEq, Repr

namespace Token

def text : Token → List Char
  | name n => n.toList
  | literal l => l.text.toList
  | keyword word => word.toList
  | operator op => op.symbol.toList
  | mark c => [c]

def isKeyword : Token → Bool
  | keyword _ => true
  | _ => false

def startsWord (t : Token) : Bool := Lexeme.continuesWord t.text

end Token

mutual

def Expr.tokens : Expr → List Token
  | .const literal _ => [.literal literal]
  | .ident name _ => [.name name]
  | .call callee args _ => .name callee.name :: .mark '(' :: (argTokens args ++ [.mark ')'])
  | .additive left op right _ => left.tokens ++ .operator op :: right.tokens
  | .comparison left op right _ => left.tokens ++ .operator op :: right.tokens
  | .paren inner _ => .mark '(' :: (inner.tokens ++ [.mark ')'])

def argTokens : List Expr → List Token
  | [] => []
  | e :: es => e.tokens ++ moreArgTokens es

def moreArgTokens : List Expr → List Token
  | [] => []
  | e :: es => .mark ',' :: (e.tokens ++ moreArgTokens es)

end

mutual

def Stmt.tokens : Stmt → List Token
  | .assign target value _ =>
      .name target.name :: .mark '=' :: (value.tokens ++ [.mark ';'])
  | .call callee args _ =>
      .name callee.name :: .mark '(' :: (argTokens args ++ [.mark ')', .mark ';'])
  | .loop kind condition body otherwise _ =>
      .keyword kind.keyword :: (condition.tokens ++ (body.tokens ++ otherwise.tokens))
  | .branch b => b.tokens

def Block.tokens : Block → List Token
  | .mk stmts _ => .mark '\x7b' :: (stmtTokens stmts ++ [.mark '\x7d'])

def Branch.tokens : Branch → List Token
  | .mk condition body otherwise _ =>
      .keyword "if" :: (condition.tokens ++ (body.tokens ++ otherwise.tokens))

def Otherwise.tokens : Otherwise → List Token
  | .nothing => []
  | .block body => .keyword "else" :: body.tokens
  | .branch b => .keyword "else" :: b.tokens

def stmtTokens : List Stmt → List Token
  | [] => []
  | s :: ss => s.tokens ++ stmtTokens ss

end

theorem moreArgTokens_eq (es : List Expr) :
    moreArgTokens es = es.flatMap fun e => .mark ',' :: e.tokens := by
  induction es with
  | nil => rfl
  | cons e es ih => rw [moreArgTokens, ih, List.flatMap_cons, List.cons_append]

theorem stmtTokens_eq (ss : List Stmt) : stmtTokens ss = ss.flatMap Stmt.tokens := by
  induction ss with
  | nil => rfl
  | cons s ss ih => rw [stmtTokens, ih, List.flatMap_cons]

def Program.tokens (program : Program) : List Token := stmtTokens program.stmts

/--
Blanks and comments.  A newline ends a comment; one that reaches the end of
the text needs none.
-/
inductive Trivia : (atEnd : Bool) → List Char → Prop where
  | nil {atEnd : Bool} : Trivia atEnd []
  | blank {atEnd : Bool} {c : Char} {w : List Char} (isBlank : Lexeme.isBlank c = true)
      (others : Trivia atEnd w) : Trivia atEnd (c :: w)
  | comment {atEnd : Bool} {body w : List Char} (oneLine : '\n' ∉ body)
      (others : Trivia atEnd w) : Trivia atEnd ('/' :: '/' :: (body ++ '\n' :: w))
  | lastComment {body : List Char} (oneLine : '\n' ∉ body) : Trivia true ('/' :: '/' :: body)

/--
A text renders tokens if it consists of them in order, with trivia in front of
each and behind the last.  Behind a keyword, the trivia in front of a token that
begins like a continued name are not empty.
-/
inductive Renders : (afterKeyword : Bool) → List Token → List Char → Prop where
  | ending {afterKeyword : Bool} {w : List Char} (gap : Trivia true w) :
      Renders afterKeyword [] w
  | token {afterKeyword : Bool} {t : Token} {ts : List Token} {w s : List Char}
      (gap : Trivia false w)
      (apart : afterKeyword = true → t.startsWord = true → w ≠ [])
      (rest : Renders t.isKeyword ts s) :
      Renders afterKeyword (t :: ts) (w ++ (t.text ++ s))

def Program.RenderedBy (program : Program) (text : String) : Prop :=
  Renders false program.tokens text.toList

def Program.render (program : Program) : String :=
  String.ofList (program.tokens.flatMap fun t => ' ' :: t.text)

/-- A space in front of each token keeps them apart. -/
theorem renders_spaced (afterKeyword : Bool) (ts : List Token) :
    Renders afterKeyword ts (ts.flatMap fun t => ' ' :: t.text) := by
  induction ts generalizing afterKeyword with
  | nil => exact .ending .nil
  | cons t ts ih =>
      have space : Trivia false [' '] := .blank rfl .nil
      rw [List.flatMap_cons]
      exact .token space (fun _ _ => List.cons_ne_nil _ _) (ih t.isKeyword)

/-- Every program has a rendering. -/
theorem Program.renderedBy_render (program : Program) : program.RenderedBy program.render := by
  rw [Program.RenderedBy, Program.render, String.toList_ofList]
  exact renders_spaced false program.tokens

end TinyScript
