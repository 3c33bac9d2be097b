import TinyScript.Report.Record
import TinyScript.Report.WrittenNumber

/-!
# Documents

Reading JSON documents, and spans, parse errors and error kinds from them.  An
escape may name half of a surrogate pair without the other half; a value with
such a text in it is kept as unreadable, since it can be skipped but not used.
-/

namespace TinyScript

inductive Document where
  | null
  | boolean (b : Bool)
  | number (n : WrittenNumber)
  | text (s : String)
  /-- A text that is no text, or an object with such a name in it. -/
  | unreadable
  | array (items : List Document)
  | object (fields : List (String × Document))

namespace Document

/-- A reader splits a value off the characters ahead. -/
abbrev Reader (α : Type) := List Char → Option (α × List Char)

def isBlank (c : Char) : Bool := c == ' ' || c == '\n' || c == '\t' || c == '\r'

def skipBlanks (chars : List Char) : List Char := chars.dropWhile isBlank

def exactly (symbol : List Char) : Reader Unit := fun chars =>
  (symbol.isPrefixOf? chars).map ((), ·)

def hexValue? (c : Char) : Option Nat :=
  if c.isDigit then some (c.toNat - '0'.toNat)
  else if 'a' ≤ c ∧ c ≤ 'f' then some (c.toNat - 'a'.toNat + 10)
  else if 'A' ≤ c ∧ c ≤ 'F' then some (c.toNat - 'A'.toNat + 10)
  else none

def escapeOf? : Char → Option Char
  | '"' => some '"'
  | '\\' => some '\\'
  | '/' => some '/'
  | 'b' => some '\x08'
  | 'f' => some '\x0c'
  | 'n' => some '\n'
  | 'r' => some '\r'
  | 't' => some '\t'
  | _ => none

/--
The code units of a text up to its closing quotation mark, last unit first.  A
character is one unit, and an escape is the unit it names, possibly half of a
surrogate pair.
-/
def unitsFrom (units : List Nat) : Reader (List Nat)
  | [] => none
  | '"' :: rest => some (units, rest)
  | '\\' :: 'u' :: a :: b :: c :: d :: rest => do
      let a ← hexValue? a
      let b ← hexValue? b
      let c ← hexValue? c
      let d ← hexValue? d
      let unit := ((a * 16 + b) * 16 + c) * 16 + d
      unitsFrom (unit :: units) rest
  | '\\' :: e :: rest => do
      let c ← escapeOf? e
      unitsFrom (c.toNat :: units) rest
  | c :: rest => if c.toNat < 0x20 ∨ c = '\\' then none else unitsFrom (c.toNat :: units) rest

def isHigh (unit : Nat) : Bool := 0xD800 ≤ unit && unit < 0xDC00

def isLow (unit : Nat) : Bool := 0xDC00 ≤ unit && unit < 0xE000

/-- The characters of code units; every half of a surrogate pair needs the other half. -/
def charsOf? : List Nat → Option (List Char)
  | [] => some []
  | [unit] => if isHigh unit || isLow unit then none else some [Char.ofNat unit]
  | unit :: next :: rest =>
      if isHigh unit then
        if isLow next then
          (charsOf? rest).map (Char.ofNat (0x10000 + (unit - 0xD800) * 1024 + (next - 0xDC00)) :: ·)
        else none
      else if isLow unit then none
      else (charsOf? (next :: rest)).map (Char.ofNat unit :: ·)

/-- Read a text behind its opening quotation mark; the text is missing if its escapes name none. -/
def readText : Reader (Option String) := fun chars => do
  let (units, rest) ← unitsFrom [] chars
  return ((charsOf? units.reverse).map String.ofList, rest)

def readDigits : Reader (List Char) := fun chars =>
  match chars.span Char.isDigit with
  | ([], _) => none
  | (digits, rest) => some (digits, rest)

def readWhole : Reader (List Char)
  | '0' :: rest => if (rest.head?.map Char.isDigit).getD false then none else some (['0'], rest)
  | chars => readDigits chars

def readFraction : Reader (List Char)
  | '.' :: rest => readDigits rest
  | chars => some ([], chars)

def readExponent : Reader (Option Int)
  | [] => some (none, [])
  | mark :: rest =>
      if mark = 'e' ∨ mark = 'E' then do
        let (negative, rest) := Numeral.signed rest
        let (digits, rest) ← readDigits rest
        let n : Int := Numeral.natOf digits
        return (some (if negative then -n else n), rest)
      else some (none, mark :: rest)

def readNumber (negative : Bool) : Reader Document := fun chars => do
  let (whole, rest) ← readWhole chars
  let (fraction, rest) ← readFraction rest
  let (exponent, rest) ← readExponent rest
  return (.number ⟨negative, whole, fraction, exponent⟩, rest)

/-! ## Values -/

def ofFields (fields : List (Option String × Document)) : Document :=
  match fields.mapM fun (name, value) => name.map (·, value) with
  | some fields => object fields
  | none => unreadable

mutual

/-- Read a value.  The bound counts the values and parts within it. -/
def readValue : Nat → Reader Document
  | 0, _ => none
  | bound + 1, chars =>
      match skipBlanks chars with
      | '"' :: rest => do
          let (read, rest) ← readText rest
          return ((read.map Document.text).getD .unreadable, rest)
      | '[' :: rest =>
          match skipBlanks rest with
          | ']' :: rest => some (.array [], rest)
          | rest => do
              let (items, rest) ← readItems bound rest
              return (.array items, rest)
      | '\x7b' :: rest =>
          match skipBlanks rest with
          | '\x7d' :: rest => some (.object [], rest)
          | rest => do
              let (fields, rest) ← readFields bound rest
              return (ofFields fields, rest)
      | '-' :: rest => readNumber true rest
      | 'n' :: rest => do
          let ((), rest) ← exactly ['u', 'l', 'l'] rest
          return (.null, rest)
      | 't' :: rest => do
          let ((), rest) ← exactly ['r', 'u', 'e'] rest
          return (.boolean true, rest)
      | 'f' :: rest => do
          let ((), rest) ← exactly ['a', 'l', 's', 'e'] rest
          return (.boolean false, rest)
      | rest => readNumber false rest

def readItems : Nat → Reader (List Document)
  | 0, _ => none
  | bound + 1, chars => do
      let (item, rest) ← readValue bound chars
      match skipBlanks rest with
      | ',' :: rest =>
          let (items, rest) ← readItems bound rest
          return (item :: items, rest)
      | ']' :: rest => return ([item], rest)
      | _ => none

def readFields : Nat → Reader (List (Option String × Document))
  | 0, _ => none
  | bound + 1, chars => do
      let ((), rest) ← exactly ['"'] (skipBlanks chars)
      let (name, rest) ← readText rest
      let ((), rest) ← exactly [':'] (skipBlanks rest)
      let (value, rest) ← readValue bound rest
      match skipBlanks rest with
      | ',' :: rest =>
          let (fields, rest) ← readFields bound rest
          return ((name, value) :: fields, rest)
      | '\x7d' :: rest => return ([(name, value)], rest)
      | _ => none

end

def ofText? (text : String) : Option Document := do
  let chars := text.toList
  let (document, rest) ← readValue (2 * chars.length + 2) chars
  if (skipBlanks rest).isEmpty then some document else none

/-! ## Contents -/

mutual

/--
Whether a document can be kept as a value: all its texts are texts, its
numbers are finite, and no more than `depth` arrays and objects contain one
another.
-/
def isKept (depth : Nat) : Document → Bool
  | null | boolean _ | text _ => true
  | number n => n.isFinite
  | unreadable => false
  | array items => 0 < depth && areKept (depth - 1) items
  | object fields => 0 < depth && fieldsKept (depth - 1) fields

def areKept (depth : Nat) : List Document → Bool
  | [] => true
  | item :: items => item.isKept depth && areKept depth items

def fieldsKept (depth : Nat) : List (String × Document) → Bool
  | [] => true
  | (_, value) :: fields => value.isKept depth && fieldsKept depth fields

end

def word? : Document → Option UInt32
  | number n => n.word?
  | _ => none

def text? : Document → Option String
  | text s => some s
  | _ => none

end Document

/-- The content of a field that stands in an object exactly once. -/
def field? (name : String) (fields : List (String × Document)) : Option Document :=
  match fields.filter (·.1 == name) with
  | [(_, value)] => some value
  | _ => none

namespace Span

def ofFields? (fields : List (String × Document)) : Option Span := do
  let line ← (← field? "line" fields).word?
  let column ← (← field? "column" fields).word?
  let endLine ← (← field? "end_line" fields).word?
  let endColumn ← (← field? "end_column" fields).word?
  return ⟨⟨line, column⟩, ⟨endLine, endColumn⟩⟩

def ofDocument? : Document → Option Span
  | .object fields => ofFields? fields
  | .array [line, column, endLine, endColumn] => do
      return ⟨⟨← line.word?, ← column.word?⟩, ⟨← endLine.word?, ← endColumn.word?⟩⟩
  | _ => none

end Span

namespace ParseError

/-- How deep the arrays and objects of a parse error's document may contain one another. -/
def maxDepth : Nat := 127

/-- The parse error of a document.  Unknown fields are ignored, but must be values to keep. -/
def ofDocument? (document : Document) : Option ParseError :=
  match document with
  | .object fields => do
      guard (document.isKept maxDepth)
      let file ← (← field? "file" fields).text?
      let message ← (← field? "message" fields).text?
      let span ← Span.ofFields? fields
      let sourceLine ← (← field? "source_line" fields).text?
      return ⟨file, message, span, sourceLine⟩
  | _ => none

end ParseError

namespace ErrorKind

/-- The kind of a document: its name, or an object with that name and nothing in it. -/
def ofDocument? : Document → Option ErrorKind
  | .text name => ofName? name
  | .object [(name, .null)] => ofName? name
  | _ => none

end ErrorKind

end TinyScript
