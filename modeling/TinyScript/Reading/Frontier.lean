import TinyScript.Source.Cursor

/-!
# What a reader expected

Reading a script means trying the rules of its grammar.  A frontier records
the rules that failed furthest into the text.  Frontiers combine by keeping
the further one, and both lists at equal offsets; so the record of a whole
reading does not depend on how its parts are grouped.  A rule that fails over
failed rules at its own beginning stands for them, unless there is only one.
-/

namespace TinyScript

/-- The rules that can be expected, in the order in which they are listed. -/
inductive Rule where
  | endOfInput
  | program
  | block
  | branch
  | loop
  | alternative
  | loopKeyword
  | ifKeyword
  | elseKeyword
  | assignment
  | call
  | expression
  | paren
  | eq
  | notEq
  | greater
  | less
  | add
  | sub
  | mul
  | constant
  | float
  | integer
  | text
  | boolean
  | null
  | identifier
  deriving DecidableEq, Repr

namespace Rule

def all : List Rule :=
  [.endOfInput, .program, .block, .branch, .loop, .alternative, .loopKeyword, .ifKeyword,
   .elseKeyword, .assignment, .call, .expression, .paren, .eq, .notEq, .greater, .less, .add,
   .sub, .mul, .constant, .float, .integer, .text, .boolean, .null, .identifier]

def name : Rule → String
  | .endOfInput => "end of input"
  | .program => "program"
  | .block => "block"
  | .branch => "if block"
  | .loop => "while block"
  | .alternative => "else_if_block"
  | .loopKeyword => "`while` or `until`"
  | .ifKeyword => "kw_if"
  | .elseKeyword => "`else`"
  | .assignment => "assignment"
  | .call => "function call"
  | .expression => "expression"
  | .paren => "paren"
  | .eq | .notEq | .greater | .less | .add | .sub | .mul => "operator"
  | .constant => "literal"
  | .float => "float"
  | .integer => "integer"
  | .text => "string"
  | .boolean => "bool"
  | .null => "null"
  | .identifier => "identifier"

end Rule

/-- The rules that failed at the furthest place, in the order of their attempts. -/
structure Frontier where
  mark : Mark
  rules : List Rule
  deriving DecidableEq, Repr

namespace Frontier

def none : Frontier := ⟨Mark.origin, []⟩

def single (mark : Mark) (rule : Rule) : Frontier := ⟨mark, [rule]⟩

/-- The record of two readings, one after the other. -/
def merge (a b : Frontier) : Frontier :=
  if a.mark.offset < b.mark.offset then b
  else if b.mark.offset < a.mark.offset then a
  else ⟨a.mark, a.rules ++ b.rules⟩

/--
The record of a rule that failed from `start`, over the record of what was
tried inside it.  Failures further on, and a single failure at `start`, say
more than the rule itself.
-/
def blame (rule : Rule) (start : Mark) (inner : Frontier) : Frontier :=
  if start.offset < inner.mark.offset then inner
  else if inner.mark.offset = start.offset ∧ inner.rules.length = 1 then inner
  else single start rule

def expected (f : Frontier) : List Rule := Rule.all.filter (f.rules.contains ·)

end Frontier

/-- Alternatives as a phrase: `a`, `a or b`, `a, b, or c`. -/
def alternatives : List String → String
  | [] => ""
  | [a] => a
  | [a, b] => a ++ " or " ++ b
  | names => String.intercalate ", " names.dropLast ++ ", or " ++ names.getLastD ""

end TinyScript
