import TinyScript.Proofs.Recognizing
import TinyScript.Reading.Grammar

/-!
# The rules of the grammar

What the recognizer of each rule reads, in terms of the recognizers of its
parts and of the trivia skipped between them.
-/

namespace TinyScript.Grammar

open Recognizer

def furtherArgument (expression : Recognizer Expr) : Recognizer Expr := do
  symbol [',']
  trivia
  expression

theorem reads_furtherArgument {p : Recognizer Expr} {c c' : Cursor} {e : Expr} :
    (furtherArgument p).Reads c e c' ↔
      ∃ c₁, (symbol [',']).Reads c () c₁ ∧ p.Reads c₁.skip e c' := by
  rw [furtherArgument]
  simp only [↓reads_symbol_bind, ↓reads_trivia_bind]

theorem reads_arguments {p : Recognizer Expr} {bound : Nat} {c c' : Cursor} {args : List Expr} :
    (arguments p bound).Reads c args c' ↔
      ∃ first others c₁, args = first :: others ∧ p.Reads c first c₁ ∧
        (many bound (furtherArgument p)).Reads c₁.skip others c' := by
  rw [arguments]
  simp only [reads_bind, ↓reads_trivia_bind, reads_pure]
  constructor
  · rintro ⟨first, c₁, read, others, _, more, rfl, rfl⟩
    exact ⟨first, others, c₁, rfl, read, more⟩
  · rintro ⟨first, others, c₁, rfl, read, more⟩
    exact ⟨first, c₁, read, others, c', more, rfl, rfl⟩

theorem reads_call {p : Recognizer Expr} {bound : Nat} {c c' : Cursor} {callee : Ident}
    {args : List Expr} {span : Span} :
    (call p bound).Reads c (callee, args, span) c' ↔
      ∃ c₁ c₂ c₃, identifier.Reads c callee c₁ ∧ (symbol ['(']).Reads c₁.skip () c₂ ∧
        (withDefault [] (arguments p bound)).Reads c₂.skip args c₃ ∧
        (symbol [')']).Reads c₃.skip () c' ∧ span = c.mark.spanTo c'.mark := by
  rw [call]
  simp only [↓reads_spanned_bind, ↓reads_symbol_bind, ↓reads_trivia_bind, reads_bind, reads_pure]
  constructor
  · rintro ⟨_, _, ⟨_, c₁, name, c₂, opened, _, c₃, read, _, closed, rfl, rfl⟩, whole, rfl⟩
    cases whole
    exact ⟨c₁, c₂, c₃, name, opened, read, closed, rfl⟩
  · rintro ⟨c₁, c₂, c₃, name, opened, read, closed, rfl⟩
    exact ⟨(callee, args), c', ⟨callee, c₁, name, c₂, opened, args, c₃, read, c', closed, rfl, rfl⟩,
      rfl, rfl⟩

theorem reads_paren {p : Recognizer Expr} {c c' : Cursor} {e : Expr} :
    (paren p).Reads c e c' ↔ ∃ inner c₁ c₂, e = .paren inner (c.mark.spanTo c'.mark) ∧
      (symbol ['(']).Reads c () c₁ ∧ p.Reads c₁.skip inner c₂ ∧
      (symbol [')']).Reads c₂.skip () c' := by
  rw [paren]
  simp only [↓reads_spanned_bind, ↓reads_symbol_bind, ↓reads_trivia_bind, reads_bind, reads_pure]
  constructor
  · rintro ⟨inner, _, ⟨c₁, opened, _, c₂, read, _, closed, rfl, rfl⟩, rfl, rfl⟩
    exact ⟨inner, c₁, c₂, rfl, opened, read, closed⟩
  · rintro ⟨inner, c₁, c₂, rfl, opened, read, closed⟩
    exact ⟨inner, c', ⟨c₁, opened, inner, c₂, read, c', closed, rfl, rfl⟩, rfl, rfl⟩

def callOperand (expression : Recognizer Expr) (bound : Nat) : Recognizer Expr := do
  let (callee, args, span) ← call expression bound
  return .call callee args span

theorem reads_callOperand {p : Recognizer Expr} {bound : Nat} {c c' : Cursor} {e : Expr} :
    (callOperand p bound).Reads c e c' ↔
      ∃ callee args span, e = .call callee args span ∧
        (call p bound).Reads c (callee, args, span) c' := by
  simp only [callOperand, reads_bind, reads_pure, Prod.exists]
  constructor
  · rintro ⟨callee, args, span, c₁, read, rfl, rfl⟩
    exact ⟨callee, args, span, rfl, read⟩
  · rintro ⟨callee, args, span, rfl, read⟩
    exact ⟨callee, args, span, c', read, rfl, rfl⟩

def nameOperand : Recognizer Expr := do
  let name ← identifier
  return .ident name.name name.span

theorem reads_nameOperand {c c' : Cursor} {e : Expr} :
    nameOperand.Reads c e c' ↔
      ∃ ident : Ident, e = .ident ident.name ident.span ∧ identifier.Reads c ident c' := by
  simp only [nameOperand, reads_bind, reads_pure]
  constructor
  · rintro ⟨ident, c₁, read, rfl, rfl⟩
    exact ⟨ident, rfl, read⟩
  · rintro ⟨ident, rfl, read⟩
    exact ⟨ident, c', read, rfl, rfl⟩

theorem reads_term {p : Recognizer Expr} {bound : Nat} {c c' : Cursor} {e : Expr} :
    (term p bound).Reads c e c' ↔
      constant.Reads c e c' ∨ constant.Refuses c ∧
        ((callOperand p bound).Reads c e c' ∨ (callOperand p bound).Refuses c ∧
          (nameOperand.Reads c e c' ∨ nameOperand.Refuses c ∧ (paren p).Reads c e c')) := by
  change (constant <|> callOperand p bound <|> nameOperand <|> paren p).Reads c e c' ↔ _
  simp only [reads_orElse]

def link (expression : Recognizer Expr) (bound : Nat) : Recognizer (BinOp × Expr) := do
  let op ← operator
  trivia
  let operand ← term expression bound
  return (op, operand)

theorem reads_link {p : Recognizer Expr} {bound : Nat} {c c' : Cursor} {op : BinOp} {e : Expr} :
    (link p bound).Reads c (op, e) c' ↔
      ∃ c₁, operator.Reads c op c₁ ∧ (term p bound).Reads c₁.skip e c' := by
  rw [link]
  simp only [reads_bind, ↓reads_trivia_bind, reads_pure]
  constructor
  · rintro ⟨_, c₁, read, _, _, operand, same, rfl⟩
    cases same
    exact ⟨c₁, read, operand⟩
  · rintro ⟨c₁, read, operand⟩
    exact ⟨op, c₁, read, e, c', operand, rfl, rfl⟩

theorem reads_expression {bound : Nat} {c c' : Cursor} {e : Expr} :
    (expression (bound + 1)).Reads c e c' ↔
      ∃ first links c₁, e = Precedence.resolve Expr.binary first links ∧
        (term (expression bound) bound).Reads c first c₁ ∧
        (many bound (link (expression bound) bound)).Reads c₁.skip links c' := by
  rw [expression, reads_expecting]
  simp only [reads_bind, ↓reads_trivia_bind, reads_pure]
  constructor
  · rintro ⟨first, c₁, read, links, _, more, rfl, rfl⟩
    exact ⟨first, links, c₁, rfl, read, more⟩
  · rintro ⟨first, links, c₁, rfl, read, more⟩
    exact ⟨first, c₁, read, links, c', more, rfl, rfl⟩

theorem reads_assignment {bound : Nat} {c c' : Cursor} {s : Stmt} :
    (assignment bound).Reads c s c' ↔
      ∃ target value c₁ c₂, s = .assign target value (c.mark.spanTo c'.mark) ∧
        identifier.Reads c target c₁ ∧ (symbol ['=']).Reads c₁.skip () c₂ ∧
        (expression bound).Reads c₂.skip value c' := by
  rw [assignment]
  simp only [↓reads_spanned_bind, ↓reads_symbol_bind, ↓reads_trivia_bind, reads_bind,
    reads_pure]
  constructor
  · rintro ⟨_, _, ⟨target, c₁, name, c₂, sign, value, _, read, rfl, rfl⟩, rfl, rfl⟩
    exact ⟨target, value, c₁, c₂, rfl, name, sign, read⟩
  · rintro ⟨target, value, c₁, c₂, rfl, name, sign, read⟩
    exact ⟨(target, value), c', ⟨target, c₁, name, c₂, sign, value, c', read, rfl, rfl⟩, rfl, rfl⟩

def callStmt (expression : Recognizer Expr) (bound : Nat) : Recognizer Stmt := do
  let (callee, args, span) ← call expression bound
  return .call callee args span

theorem reads_callStmt {p : Recognizer Expr} {bound : Nat} {c c' : Cursor} {s : Stmt} :
    (callStmt p bound).Reads c s c' ↔
      ∃ callee args span, s = .call callee args span ∧
        (call p bound).Reads c (callee, args, span) c' := by
  simp only [callStmt, reads_bind, reads_pure, Prod.exists]
  constructor
  · rintro ⟨callee, args, span, c₁, read, rfl, rfl⟩
    exact ⟨callee, args, span, rfl, read⟩
  · rintro ⟨callee, args, span, rfl, read⟩
    exact ⟨callee, args, span, c', read, rfl, rfl⟩

theorem reads_simpleStmt {bound : Nat} {c c' : Cursor} {s : Stmt} :
    (simpleStmt bound).Reads c s c' ↔
      ∃ c₁, ((assignment bound).Reads c s c₁ ∨
          (assignment bound).Refuses c ∧ (callStmt (expression bound) bound).Reads c s c₁) ∧
        (symbol [';']).Reads c₁.skip () c' := by
  change (do
    let s ← assignment bound <|> callStmt (expression bound) bound
    trivia
    symbol [';']
    return s : Recognizer Stmt).Reads c s c' ↔ _
  simp only [↓reads_symbol_bind, ↓reads_trivia_bind, reads_bind, reads_orElse, reads_pure]
  constructor
  · rintro ⟨_, c₁, read, _, closed, rfl, rfl⟩
    exact ⟨c₁, read, closed⟩
  · rintro ⟨c₁, read, closed⟩
    exact ⟨s, c₁, read, c', closed, rfl, rfl⟩

theorem reads_block {p : Recognizer Stmt} {bound : Nat} {c c' : Cursor} {b : Block} :
    (block p bound).Reads c b c' ↔
      ∃ stmts c₁ c₂, b = .mk stmts (c.mark.spanTo c'.mark) ∧ (symbol ['\x7b']).Reads c () c₁ ∧
        (many bound p).Reads c₁.skip stmts c₂ ∧ (symbol ['\x7d']).Reads c₂.skip () c' := by
  rw [block]
  simp only [↓reads_spanned_bind, ↓reads_symbol_bind, ↓reads_trivia_bind, reads_bind, reads_pure]
  constructor
  · rintro ⟨stmts, _, ⟨c₁, opened, _, c₂, read, _, closed, rfl, rfl⟩, rfl, rfl⟩
    exact ⟨stmts, c₁, c₂, rfl, opened, read, closed⟩
  · rintro ⟨stmts, c₁, c₂, rfl, opened, read, closed⟩
    exact ⟨stmts, c', ⟨c₁, opened, stmts, c₂, read, c', closed, rfl, rfl⟩, rfl, rfl⟩

def alternative (block : Recognizer Block) (branch : Recognizer Branch) : Recognizer Otherwise := do
  let _ ← token .elseKeyword (Lexeme.word "else")
  trivia
  expecting .alternative ((.block <$> block) <|> (.branch <$> branch))

theorem reads_alternative {p : Recognizer Block} {q : Recognizer Branch} {c c' : Cursor}
    {o : Otherwise} :
    (alternative p q).Reads c o c' ↔
      ∃ word c₁, (token .elseKeyword (Lexeme.word "else")).Reads c word c₁ ∧
        ((∃ body, p.Reads c₁.skip body c' ∧ o = .block body) ∨
          p.Refuses c₁.skip ∧ ∃ b, q.Reads c₁.skip b c' ∧ o = .branch b) := by
  rw [alternative]
  simp only [reads_bind, ↓reads_trivia_bind, reads_expecting, reads_orElse, reads_map,
    refuses_map]

theorem reads_otherwise {p : Recognizer Block} {q : Recognizer Branch} {c c' : Cursor}
    {o : Otherwise} :
    (otherwise p q).Reads c o c' ↔
      (alternative p q).Reads c o c' ∨ (alternative p q).Refuses c ∧ o = .nothing ∧ c' = c := by
  change (withDefault .nothing (alternative p q)).Reads c o c' ↔ _
  rw [reads_withDefault]

theorem reads_branch {p : Recognizer Block} {bound links : Nat} {c c' : Cursor} {b : Branch} :
    (branch p bound (links + 1)).Reads c b c' ↔
      ∃ word condition body other c₁ c₂ c₃, b = .mk condition body other (c.mark.spanTo c'.mark) ∧
        (token .ifKeyword (Lexeme.word "if")).Reads c word c₁ ∧
        (expression bound).Reads c₁.skip condition c₂ ∧ p.Reads c₂.skip body c₃ ∧
        (otherwise p (branch p bound links)).Reads c₃.skip other c' := by
  rw [branch]
  simp only [↓reads_spanned_bind, ↓reads_trivia_bind, reads_bind, reads_pure]
  constructor
  · rintro ⟨_, _, ⟨word, c₁, keyword, condition, c₂, guard, body, c₃, read, other, _, more,
      rfl, rfl⟩, rfl, rfl⟩
    exact ⟨word, condition, body, other, c₁, c₂, c₃, rfl, keyword, guard, read, more⟩
  · rintro ⟨word, condition, body, other, c₁, c₂, c₃, rfl, keyword, guard, read, more⟩
    exact ⟨(condition, body, other), c',
      ⟨word, c₁, keyword, condition, c₂, guard, body, c₃, read, other, c', more, rfl, rfl⟩,
      rfl, rfl⟩

def loopKind (word : String) : LoopKind := if word = "until" then .untilTrue else .whileTrue

theorem reads_loop {p : Recognizer Block} {bound : Nat} {c c' : Cursor} {s : Stmt} :
    (loop p bound).Reads c s c' ↔
      ∃ word condition body other c₁ c₂ c₃,
        s = .loop (loopKind word) condition body other (c.mark.spanTo c'.mark) ∧
        (token .loopKeyword (Lexeme.oneOf ["while", "until"])).Reads c word c₁ ∧
        (expression bound).Reads c₁.skip condition c₂ ∧ p.Reads c₂.skip body c₃ ∧
        (otherwise p (branch p bound bound)).Reads c₃.skip other c' := by
  rw [loop]
  simp only [↓reads_spanned_bind, ↓reads_trivia_bind, reads_bind, reads_pure]
  constructor
  · rintro ⟨_, _, ⟨word, c₁, keyword, condition, c₂, guard, body, c₃, read, other, _, more,
      rfl, rfl⟩, rfl, rfl⟩
    exact ⟨word, condition, body, other, c₁, c₂, c₃, rfl, keyword, guard, read, more⟩
  · rintro ⟨word, condition, body, other, c₁, c₂, c₃, rfl, keyword, guard, read, more⟩
    exact ⟨(loopKind word, condition, body, other), c',
      ⟨word, c₁, keyword, condition, c₂, guard, body, c₃, read, other, c', more, rfl, rfl⟩,
      rfl, rfl⟩

theorem reads_stmt {bound : Nat} {c c' : Cursor} {s : Stmt} :
    (stmt (bound + 1)).Reads c s c' ↔
      (simpleStmt bound).Reads c s c' ∨ (simpleStmt bound).Refuses c ∧
        ((∃ b, (branch (block (stmt bound) bound) bound bound).Reads c b c' ∧ s = .branch b) ∨
          (branch (block (stmt bound) bound) bound bound).Refuses c ∧
          (loop (block (stmt bound) bound) bound).Reads c s c') := by
  rw [stmt]
  simp only [reads_orElse, reads_map, refuses_map]

theorem reads_program {bound : Nat} {c c' : Cursor} {program : Program} :
    (Grammar.program bound).Reads c program c' ↔
      ∃ c₁, (many bound (stmt bound)).Reads c.skip program.stmts c₁ ∧ c₁.skip.rest = [] ∧
        c' = c₁.skip ∧ program.span = c.mark.spanTo c'.mark := by
  rw [Grammar.program]
  simp only [↓reads_spanned_bind, ↓reads_trivia_bind, reads_bind, reads_endOfInput,
    reads_pure]
  constructor
  · rintro ⟨_, _, ⟨stmts, c₁, read, _, _, ⟨atEnd, rfl⟩, rfl, rfl⟩, rfl, rfl⟩
    exact ⟨c₁, read, atEnd, rfl, rfl⟩
  · obtain ⟨stmts, span⟩ := program
    rintro ⟨c₁, read, atEnd, rfl, rfl⟩
    exact ⟨stmts, _, ⟨stmts, c₁, read, (), _, ⟨atEnd, rfl⟩, rfl, rfl⟩, rfl, rfl⟩

end TinyScript.Grammar
