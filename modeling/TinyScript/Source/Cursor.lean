import TinyScript.Source.Span

/-!
# Marks and cursors

A mark is a place in a text as a scan from its beginning sees it: the byte
offset together with the line and column counted on the way.  A cursor is a
mark with the characters that are still ahead.  Every cursor reached from the
beginning of a text stands between two of its characters.
-/

namespace TinyScript

structure Mark where
  offset : Nat
  line : Nat
  column : Nat
  deriving DecidableEq, Repr, Inhabited

namespace Mark

def origin : Mark := ⟨0, 1, 1⟩

/-- The place behind one character; a newline begins the next line. -/
def step (m : Mark) (c : Char) : Mark :=
  if c = '\n' then ⟨m.offset + 1, m.line + 1, 1⟩
  else ⟨m.offset + c.utf8Size, m.line, m.column + 1⟩

def advance (m : Mark) (chars : List Char) : Mark := chars.foldl step m

def position (m : Mark) : Position := ⟨UInt32.ofNat m.line, UInt32.ofNat m.column⟩

def spanTo (m n : Mark) : Span := ⟨m.position, n.position⟩

end Mark

structure Cursor where
  mark : Mark
  rest : List Char
  deriving DecidableEq, Repr

namespace Cursor

def ofText (text : String) : Cursor := ⟨Mark.origin, text.toList⟩

end Cursor

end TinyScript
