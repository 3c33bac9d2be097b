import TinyScript.Program.Height
import TinyScript.Reading.Grammar
import TinyScript.Reading.Nesting
import TinyScript.Source.Basic

/-!
# Reading a script

Reading counts the brackets of the text, recognizes the grammar and measures
the expressions of the tree, in this order.  The first check that fails gives
the fault.  A parse error is a fault with its words and the line it lies on.
-/

namespace TinyScript

inductive Fault where
  /-- A bracket nests too deep. -/
  | nesting (mark : Mark)
  /-- The grammar does not match; these rules were expected. -/
  | expected (frontier : Frontier)
  /-- An expression is too tall. -/
  | height (span : Span)
  deriving DecidableEq, Repr

namespace Fault

def message : Fault → String
  | nesting _ => "brackets nest deeper than " ++ toString Nesting.maxOpen ++ " levels"
  | expected frontier => "expected " ++ alternatives (frontier.expected.map Rule.name)
  | height _ => "expression nests deeper than " ++ toString maxHeight ++ " levels"

def span : Fault → Span
  | nesting mark => .point mark.position
  | expected frontier => .point frontier.mark.position
  | height span => span

end Fault

/-- Recognize a whole text as a script, limits aside. -/
def recognize (text : String) : Except Frontier Program :=
  let cursor := Cursor.ofText text
  match Grammar.program (cursor.rest.length + 1) cursor with
  | ⟨some (program, _), _⟩ => .ok program
  | ⟨none, frontier⟩ => .error frontier

def Program.ofText (text : String) : Except Fault Program := do
  if let some mark := Nesting.tooDeep? text.toList then
    throw (.nesting mark)
  let program ← (recognize text).mapError .expected
  program.measure.mapError .height
  return program

/-- A fault reported against a source: the words, the place and the line it lies on. -/
structure ParseError where
  file : String
  message : String
  span : Span
  sourceLine : String
  deriving DecidableEq, Repr

namespace ParseError

/-- Report a message at a place of a source; a place outside of it quotes an empty line. -/
def report (source : Source) (message : String) (span : Span) : ParseError :=
  ⟨source.name, message, span, (source.line? span.start.line).getD ""⟩

def display (e : ParseError) : String := e.file ++ ":" ++ e.span.label ++ ": " ++ e.message

end ParseError

def Source.parse (source : Source) : Except ParseError Program :=
  (Program.ofText source.text).mapError fun fault => .report source fault.message fault.span

end TinyScript
