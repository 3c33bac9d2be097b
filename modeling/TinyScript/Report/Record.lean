import TinyScript.Reading.Parse
import TinyScript.Run.EvalError

/-!
# Records

Spans and errors are exchanged as flat JSON objects, one line each: named
fields that hold a text or a number, in a fixed order and without blanks.
-/

namespace TinyScript

def hexDigit (n : Nat) : Char := if n < 10 then Char.ofNat (48 + n) else Char.ofNat (87 + n)

/--
A character inside quotation marks.  Quotation marks, backslashes and control
characters are escaped, the usual ones by a letter; everything else stands for
itself.
-/
def jsonChar (c : Char) : List Char :=
  if c = '"' then ['\\', '"']
  else if c = '\\' then ['\\', '\\']
  else if c = '\x08' then ['\\', 'b']
  else if c = '\x0c' then ['\\', 'f']
  else if c = '\n' then ['\\', 'n']
  else if c = '\r' then ['\\', 'r']
  else if c = '\t' then ['\\', 't']
  else if c.toNat < 0x20 then
    ['\\', 'u', '0', '0', hexDigit (c.toNat / 16), hexDigit (c.toNat % 16)]
  else [c]

def jsonText (s : String) : String :=
  "\"" ++ String.ofList (s.toList.flatMap jsonChar) ++ "\""

inductive Datum where
  | text (s : String)
  | number (n : Nat)
  deriving DecidableEq, Repr

namespace Datum

def json : Datum → String
  | text s => jsonText s
  | number n => toString n

end Datum

abbrev Record := List (String × Datum)

namespace Record

def json (record : Record) : String :=
  let fields := record.map fun (name, datum) => jsonText name ++ ":" ++ datum.json
  "\x7b" ++ String.intercalate "," fields ++ "\x7d"

end Record

def Span.record (span : Span) : Record :=
  [("line", .number span.start.line.toNat), ("column", .number span.start.column.toNat),
   ("end_line", .number span.stop.line.toNat), ("end_column", .number span.stop.column.toNat)]

def ParseError.record (e : ParseError) : Record :=
  [("file", .text e.file), ("message", .text e.message)] ++ e.span.record ++
    [("source_line", .text e.sourceLine)]

/-- A kind of errors is exchanged by its name. -/
def ErrorKind.json (kind : ErrorKind) : String := jsonText kind.name

end TinyScript
