import TinyScript.Report.Record

/-!
# Diagnostics

What stops the run of a script: it cannot be read, it is no script, or its
evaluation fails.  A diagnostic is the flat form of such an error.  It is
shown as one JSON line, or as text with a caret under the column at which the
error begins.
-/

namespace TinyScript

structure Diagnostic where
  kind : String
  message : String
  file : Option String := none
  span : Option Span := none
  sourceLine : Option String := none
  deriving DecidableEq, Repr

namespace Diagnostic

/-- The place of an error in front of its message; a span is told only together with a file. -/
def place (d : Diagnostic) : String :=
  match d.file, d.span with
  | some file, some span => file ++ ":" ++ span.label ++ ": "
  | some file, none => file ++ ": "
  | none, _ => ""

def blanks (width : Nat) : String := String.ofList (List.replicate width ' ')

/-- A line of the script under its number, and a caret under a column of it. -/
def excerpt (position : Position) (line : String) : String :=
  let gutter := toString position.line
  let pad := blanks gutter.length
  "\n" ++ pad ++ " |\n" ++ gutter ++ " | " ++ line ++ "\n" ++ pad ++ " | " ++
    blanks (position.column.toNat - 1) ++ "^"

def render (d : Diagnostic) : String :=
  "error[" ++ d.kind ++ "]: " ++ d.place ++ d.message ++
    match d.span, d.sourceLine with
    | some span, some line => excerpt span.start line
    | _, _ => ""

/-- The fields of a diagnostic; what is missing has no field. -/
def record (d : Diagnostic) : Record :=
  [("kind", .text d.kind), ("message", .text d.message)]
    ++ (d.file.map fun file => ("file", Datum.text file)).toList
    ++ (d.span.map Span.record).getD []
    ++ (d.sourceLine.map fun line => ("source_line", Datum.text line)).toList

def json (d : Diagnostic) : String := d.record.json

end Diagnostic

inductive ScriptError where
  | unreadable (path : String) (message : String)
  | parse (error : ParseError)
  | eval (file : String) (error : EvalError) (span : Option Span) (sourceLine : Option String)
  deriving DecidableEq, Repr

namespace ScriptError

def kind : ScriptError → String
  | unreadable _ _ => "io"
  | parse _ => "parse_error"
  | eval _ error _ _ => error.kind.name

def exitCode : ScriptError → UInt8
  | unreadable _ _ => 2
  | parse _ | eval _ _ _ _ => 1

def display : ScriptError → String
  | unreadable path message => "cannot read " ++ path ++ ": " ++ message
  | parse error => error.display
  | eval _ error _ _ => error.message

def diagnostic (e : ScriptError) : Diagnostic :=
  match e with
  | unreadable path message => { kind := e.kind, message, file := some path }
  | parse error =>
      { kind := e.kind
        message := error.message
        file := some error.file
        span := some error.span
        sourceLine := some error.sourceLine }
  | eval file error span sourceLine =>
      { kind := e.kind, message := error.message, file := some file, span, sourceLine }

end ScriptError

end TinyScript
