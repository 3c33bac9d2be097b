import TinyScript.Program.Precedence
import TinyScript.Reading.Recognizer

/-!
# The grammar of scripts

One recognizer for each rule.  Blanks and comments are skipped between the
parts of a rule, never in front of its first part.  An optional part that is
missing leaves the cursor behind the blanks that would precede it, and the
region of the rule then ends there.

Recognizers of nested constructs take a bound on the nesting and on the
length of lists.  A nested construct begins behind at least one character, so
the length of the text is a bound that no reading reaches.
-/

namespace TinyScript.Grammar

open Recognizer

def identifier : Recognizer Ident := do
  let (name, span) ← spanned (token .identifier Lexeme.identifier)
  return ⟨name, span⟩

def constant : Recognizer Expr := do
  let (literal, span) ← spanned <| expecting .constant <|
    (Literal.mk .float <$> token .float Lexeme.float)
    <|> (Literal.mk .integer <$> token .integer Lexeme.integer)
    <|> (Literal.mk .text <$> token .text Lexeme.text)
    <|> (Literal.mk .boolean <$> token .boolean (Lexeme.oneOf ["true", "false"]))
    <|> (Literal.mk .null <$> token .null (Lexeme.word "null"))
  return .const literal span

def operatorOf (rule : Rule) (op : BinOp) : Recognizer BinOp :=
  expecting rule do
    symbol op.symbol.toList
    return op

def operator : Recognizer BinOp :=
  operatorOf .eq .eq
  <|> operatorOf .notEq .notEq
  <|> operatorOf .greater .greater
  <|> operatorOf .less .less
  <|> operatorOf .add .add
  <|> operatorOf .sub .sub
  <|> operatorOf .mul .mul

def arguments (expression : Recognizer Expr) (bound : Nat) : Recognizer (List Expr) := do
  let first ← expression
  trivia
  let others ← many bound do symbol [',']; trivia; expression
  return first :: others

def call (expression : Recognizer Expr) (bound : Nat) : Recognizer (Ident × List Expr × Span) := do
  let ((callee, args), span) ← spanned <| expecting .call do
    let callee ← identifier
    trivia
    symbol ['(']
    trivia
    let args ← withDefault [] (arguments expression bound)
    trivia
    symbol [')']
    return (callee, args)
  return (callee, args, span)

def paren (expression : Recognizer Expr) : Recognizer Expr := do
  let (inner, span) ← spanned <| expecting .paren do
    symbol ['(']
    trivia
    let inner ← expression
    trivia
    symbol [')']
    return inner
  return .paren inner span

def term (expression : Recognizer Expr) (bound : Nat) : Recognizer Expr :=
  constant
  <|> (do let (callee, args, span) ← call expression bound; return .call callee args span)
  <|> (do let name ← identifier; return .ident name.name name.span)
  <|> paren expression

def expression : Nat → Recognizer Expr
  | 0 => refuse
  | bound + 1 => expecting .expression do
      let first ← term (expression bound) bound
      trivia
      let links ← many bound do
        let op ← operator
        trivia
        let operand ← term (expression bound) bound
        return (op, operand)
      return Precedence.resolve Expr.binary first links

def assignment (bound : Nat) : Recognizer Stmt := do
  let ((target, value), span) ← spanned <| expecting .assignment do
    let target ← identifier
    trivia
    symbol ['=']
    trivia
    let value ← expression bound
    return (target, value)
  return .assign target value span

def simpleStmt (bound : Nat) : Recognizer Stmt := do
  let stmt ← assignment bound
    <|> (do let (callee, args, span) ← call (expression bound) bound; return .call callee args span)
  trivia
  symbol [';']
  return stmt

def block (stmt : Recognizer Stmt) (bound : Nat) : Recognizer Block := do
  let (stmts, span) ← spanned <| expecting .block do
    symbol ['\x7b']
    trivia
    let stmts ← many bound stmt
    trivia
    symbol ['\x7d']
    return stmts
  return .mk stmts span

/-- What may follow the block of a loop or branch, given how a further branch is read. -/
def otherwise (block : Recognizer Block) (branch : Recognizer Branch) : Recognizer Otherwise :=
  withDefault .nothing do
    let _ ← token .elseKeyword (Lexeme.word "else")
    trivia
    expecting .alternative ((.block <$> block) <|> (.branch <$> branch))

def branch (block : Recognizer Block) (bound : Nat) : Nat → Recognizer Branch
  | 0 => refuse
  | links + 1 => do
      let ((condition, body, other), span) ← spanned <| expecting .branch do
        let _ ← token .ifKeyword (Lexeme.word "if")
        trivia
        let condition ← expression bound
        trivia
        let body ← block
        trivia
        let other ← otherwise block (branch block bound links)
        return (condition, body, other)
      return .mk condition body other span

def loop (block : Recognizer Block) (bound : Nat) : Recognizer Stmt := do
  let ((kind, condition, body, other), span) ← spanned <| expecting .loop do
    let keyword ← token .loopKeyword (Lexeme.oneOf ["while", "until"])
    let kind := if keyword = "until" then LoopKind.untilTrue else LoopKind.whileTrue
    trivia
    let condition ← expression bound
    trivia
    let body ← block
    trivia
    let other ← otherwise block (branch block bound bound)
    return (kind, condition, body, other)
  return .loop kind condition body other span

def stmt : Nat → Recognizer Stmt
  | 0 => refuse
  | bound + 1 =>
      simpleStmt bound
      <|> (.branch <$> branch (block (stmt bound) bound) bound bound)
      <|> loop (block (stmt bound) bound) bound

def program (bound : Nat) : Recognizer Program := do
  let (stmts, span) ← spanned <| expecting .program do
    trivia
    let stmts ← many bound (stmt bound)
    trivia
    endOfInput
    return stmts
  return ⟨stmts, span⟩

end TinyScript.Grammar
