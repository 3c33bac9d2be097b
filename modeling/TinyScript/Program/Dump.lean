import TinyScript.Program.Basic
import TinyScript.Text.Printable

/-!
# Dumps of programs

A dump shows a tree with every field on a line of its own, indented by its
depth.  Texts stand in quotation marks, with characters that cannot be shown
replaced by their code points.
-/

namespace TinyScript

/-- A tree of named fields, ready to be shown. -/
inductive Dump where
  | atom (text : String)
  | record (name : String) (fields : List (String × Dump))
  | wrapped (name : String) (content : Dump)
  | list (items : List Dump)

namespace Dump

def newline (depth : Nat) : String := "\n" ++ String.ofList (List.replicate (4 * depth) ' ')

mutual

def render (depth : Nat) : Dump → String
  | atom text => text
  | record name fields =>
      name ++ " \x7b" ++ renderFields (depth + 1) fields ++ newline depth ++ "\x7d"
  | wrapped name content =>
      name ++ "(" ++ newline (depth + 1) ++ content.render (depth + 1) ++ "," ++
        newline depth ++ ")"
  | list [] => "[]"
  | list (item :: items) =>
      "[" ++ newline (depth + 1) ++ item.render (depth + 1) ++ "," ++
        renderItems (depth + 1) items ++ newline depth ++ "]"

def renderFields (depth : Nat) : List (String × Dump) → String
  | [] => ""
  | (name, value) :: fields =>
      newline depth ++ name ++ ": " ++ value.render depth ++ "," ++ renderFields depth fields

def renderItems (depth : Nat) : List Dump → String
  | [] => ""
  | item :: items => newline depth ++ item.render depth ++ "," ++ renderItems depth items

end

def quotedChar (c : Char) : String :=
  if c = '"' then "\\\""
  else if c = '\\' then "\\\\"
  else if c = '\n' then "\\n"
  else if c = '\r' then "\\r"
  else if c = '\t' then "\\t"
  else if c = '\x00' then "\\0"
  else if isPrintable c then c.toString
  else "\\u\x7b" ++ String.ofList (Nat.toDigits 16 c.toNat) ++ "\x7d"

def quoted (s : String) : Dump :=
  atom ("\"" ++ String.join (s.toList.map quotedChar) ++ "\"")

def word (n : UInt32) : Dump := atom (toString n)

end Dump

namespace Span

def dump (span : Span) : Dump :=
  .record "Span"
    [("start_line", .word span.start.line), ("start_col", .word span.start.column),
     ("end_line", .word span.stop.line), ("end_col", .word span.stop.column)]

end Span

namespace Ident

def dump (ident : Ident) : Dump :=
  .record "Ident" [("name", .quoted ident.name), ("span", ident.span.dump)]

end Ident

def LiteralKind.dump : LiteralKind → Dump
  | .integer => .atom "Integer"
  | .float => .atom "Float"
  | .text => .atom "String"
  | .boolean => .atom "Bool"
  | .null => .atom "Null"

def Literal.dump (literal : Literal) : Dump :=
  .record "Literal" [("kind", literal.kind.dump), ("text", .quoted literal.text)]

def BinOp.dump : BinOp → Dump
  | .add => .atom "Add"
  | .sub => .atom "Sub"
  | .mul => .atom "Mul"
  | .eq => .atom "Eq"
  | .notEq => .atom "NotEq"
  | .greater => .atom "Greater"
  | .less => .atom "Less"

def LoopKind.dump : LoopKind → Dump
  | .whileTrue => .atom "While"
  | .untilTrue => .atom "Until"

def dumpCall (callee : Ident) (args : List Dump) (span : Span) : Dump :=
  .record "FunctionCall" [("name", callee.dump), ("args", .list args), ("span", span.dump)]

def dumpNode (kind : Dump) (span : Span) : Dump :=
  .record "Expr" [("kind", kind), ("span", span.dump)]

mutual

def Expr.dump : Expr → Dump
  | .const literal span => dumpNode (.wrapped "Constant" literal.dump) span
  | .ident name span => dumpNode (.wrapped "Identifier" (.quoted name)) span
  | .call callee args span =>
      dumpNode (.wrapped "Call" (dumpCall callee (dumpExprs args) span)) span
  | .additive left op right span =>
      dumpNode (.record "Additive"
        [("left", left.dump), ("op", op.dump), ("right", right.dump)]) span
  | .comparison left op right span =>
      dumpNode (.record "Comparison"
        [("left", left.dump), ("op", op.dump), ("right", right.dump)]) span
  | .paren inner span => dumpNode (.wrapped "Paren" inner.dump) span

def dumpExprs : List Expr → List Dump
  | [] => []
  | e :: es => e.dump :: dumpExprs es

end

mutual

def Stmt.dump : Stmt → Dump
  | .assign target value span =>
      .wrapped "Assignment" (.record "Assignment"
        [("target", target.dump), ("value", value.dump), ("span", span.dump)])
  | .call callee args span => .wrapped "Call" (dumpCall callee (dumpExprs args) span)
  | .loop kind condition body otherwise span =>
      .wrapped "While" (.record "WhileBlock"
        [("kind", kind.dump), ("condition", condition.dump), ("body", body.dump),
         ("else_branch", otherwise.dump), ("span", span.dump)])
  | .branch b => .wrapped "If" b.dump

def Block.dump : Block → Dump
  | .mk stmts span => .record "Block" [("stmts", .list (dumpStmts stmts)), ("span", span.dump)]

def Branch.dump : Branch → Dump
  | .mk condition body otherwise span =>
      .record "IfBlock"
        [("condition", condition.dump), ("then_block", body.dump),
         ("else_branch", otherwise.dump), ("span", span.dump)]

def Otherwise.dump : Otherwise → Dump
  | .nothing => .atom "None"
  | .block body => .wrapped "Some" (.wrapped "Block" body.dump)
  | .branch b => .wrapped "Some" (.wrapped "If" b.dump)

def dumpStmts : List Stmt → List Dump
  | [] => []
  | s :: ss => s.dump :: dumpStmts ss

end

def Program.dump (program : Program) : String :=
  (Dump.record "Program"
    [("stmts", .list (dumpStmts program.stmts)), ("span", program.span.dump)]).render 0

end TinyScript
