import TinyScript.Source.Span

/-!
# Script texts and their lines

A source is a named text.  Its line index lists, for every piece between two
newlines, the byte offset at which the piece begins.  A byte offset is turned
into a position by finding its line in that index and counting characters
from the beginning of the line.
-/

namespace TinyScript

def utf8Length (chars : List Char) : Nat :=
  chars.foldl (fun n c => n + c.utf8Size) 0

/-- One line of a text: the byte offset at which it begins, and its characters up to the newline. -/
structure Line where
  start : Nat
  chars : List Char
  deriving DecidableEq, Repr

namespace Line

def text (line : Line) : String :=
  String.ofList (line.chars.reverse.dropWhile (· == '\r')).reverse

end Line

/--
The lines of a text that begins at byte offset `start`.  The pieces between
newlines are collected in `piece`, last character first.
-/
def linesFrom (start : Nat) (piece : List Char) : List Char → List Line
  | [] => [⟨start, piece.reverse⟩]
  | c :: rest =>
      if c = '\n' then
        ⟨start, piece.reverse⟩ :: linesFrom (start + utf8Length piece + 1) [] rest
      else
        linesFrom start (c :: piece) rest

/--
How many characters lie in the first `bytes` bytes of a text, if that many
bytes end between two characters of it.
-/
def charsWithin? (bytes : Nat) : List Char → Option Nat
  | [] => if bytes = 0 then some 0 else none
  | c :: rest =>
      if bytes = 0 then some 0
      else if bytes < c.utf8Size then none
      else (charsWithin? (bytes - c.utf8Size) rest).map (· + 1)

structure Source where
  name : String
  text : String
  deriving DecidableEq, Repr

namespace Source

def lines (source : Source) : List Line := linesFrom 0 [] source.text.toList

/-- The number of lines; a newline at the end of the text opens one more, empty line. -/
def lineCount (source : Source) : Nat := source.lines.length

def line? (source : Source) (number : UInt32) : Option String :=
  if number = 0 then none
  else (source.lines[number.toNat - 1]?).map Line.text

/--
The position of a byte offset: the last line that begins at or before it, and
the number of characters in front of it on that line.  An offset that is not
between two characters of the line stands in column one.
-/
def position (source : Source) (offset : Nat) : Position :=
  let before := source.lines.takeWhile (·.start ≤ offset)
  let column := (before.getLast?.bind fun line =>
    charsWithin? (offset - line.start) line.chars).getD 0
  ⟨UInt32.ofNat (before.length - 1) + 1, UInt32.ofNat column + 1⟩

def span (source : Source) (start stop : Nat) : Span :=
  ⟨source.position start, source.position stop⟩

end Source

end TinyScript
