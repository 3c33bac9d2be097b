import TinyScript.Proofs.ReadingLayout

/-!
# The places that a tree takes

A tree takes the text between two cursors if its tokens lead from one to the
other, trivia being skipped between them, and if its spans are those of the
cursors passed on the way.  Reading gives trees that do.  An expression without
operators reaches over the trivia behind it, and so does a branch or a loop
without an alternative.
-/

namespace TinyScript

theorem skipTrivia_skipTrivia (inComment : Bool) (mark : Mark) (s : List Char) :
    (skipTrivia inComment mark s).skip = skipTrivia inComment mark s := by
  induction s generalizing inComment mark with
  | nil => rfl
  | cons c rest ih =>
      rw [skipTrivia]
      split
      · exact ih _ _
      · split
        · exact ih _ _
        · next visible =>
            split
            · exact ih _ _
            · next noComment => rw [Cursor.skip, skipTrivia, if_neg Bool.false_ne_true,
                if_neg visible, if_neg noComment]

@[simp]
theorem Cursor.skip_skip (c : Cursor) : c.skip.skip = c.skip :=
  skipTrivia_skipTrivia false c.mark c.rest

/-- Some characters lead from one cursor to another. -/
def Cursor.Takes (c : Cursor) (w : List Char) (c' : Cursor) : Prop := w ≠ [] ∧ c.Leads w c'

def Ident.Takes (ident : Ident) (c c' : Cursor) : Prop :=
  c.Takes ident.name.toList c' ∧ ident.span = c.mark.spanTo c'.mark

mutual

def Expr.Takes : Expr → Cursor → Cursor → Prop
  | .const literal span, c, c' => c.Takes literal.text.toList c' ∧ span = c.mark.spanTo c'.mark
  | .ident name span, c, c' => c.Takes name.toList c' ∧ span = c.mark.spanTo c'.mark
  | .call callee args span, c, c' => ∃ c₁ c₂ c₃, callee.Takes c c₁ ∧ c₁.skip.Takes ['('] c₂ ∧
      TakeArgs args c₂ c₃ ∧ c₃.skip.Takes [')'] c' ∧ span = c.mark.spanTo c'.mark
  | .additive left op right span, c, c' => ∃ c₁ c₂, left.Takes c c₁ ∧
      c₁.skip.Takes op.symbol.toList c₂ ∧ right.Takes c₂.skip c' ∧
      span = left.span.merge right.span
  | .comparison left op right span, c, c' => ∃ c₁ c₂, left.Takes c c₁ ∧
      c₁.skip.Takes op.symbol.toList c₂ ∧ right.Takes c₂.skip c' ∧
      span = left.span.merge right.span
  | .paren inner span, c, c' => ∃ c₁ c₂, c.Takes ['('] c₁ ∧ inner.Takes c₁.skip c₂ ∧
      c₂.skip.Takes [')'] c' ∧ span = c.mark.spanTo c'.mark

def TakeArgs : List Expr → Cursor → Cursor → Prop
  | [], c, c' => c' = c
  | e :: es, c, c' => ∃ c₁, e.Takes c.skip c₁ ∧ TakeMoreArgs es c₁ c'

def TakeMoreArgs : List Expr → Cursor → Cursor → Prop
  | [], c, c' => c' = c
  | e :: es, c, c' => ∃ c₁ c₂, c.skip.Takes [','] c₁ ∧ e.Takes c₁.skip c₂ ∧ TakeMoreArgs es c₂ c'

end

/-- Where the rule of an expression ends that takes the text up to a cursor. -/
def Expr.behind (e : Expr) (c : Cursor) : Cursor := if e.binding = 3 then c.skip else c

@[simp]
theorem Expr.skip_behind (e : Expr) (c : Cursor) : (e.behind c).skip = c.skip := by
  unfold Expr.behind
  split
  · exact c.skip_skip
  · rfl

mutual

/-- A statement takes the text between two cursors; the semicolon is not part of its span. -/
def Stmt.Takes : Stmt → Cursor → Cursor → Prop
  | .assign target value span, c, c' => ∃ c₁ c₂ c₃, target.Takes c c₁ ∧ c₁.skip.Takes ['='] c₂ ∧
      value.Takes c₂.skip c₃ ∧ c₃.skip.Takes [';'] c' ∧
      span = c.mark.spanTo (value.behind c₃).mark
  | .call callee args span, c, c' => ∃ c₁, (Expr.call callee args span).Takes c c₁ ∧
      c₁.skip.Takes [';'] c'
  | .loop kind condition body otherwise span, c, c' => ∃ c₁ c₂ c₃,
      c.Takes kind.keyword.toList c₁ ∧ condition.Takes c₁.skip c₂ ∧ body.Takes c₂.skip c₃ ∧
      otherwise.Takes c₃.skip c' ∧ span = c.mark.spanTo c'.mark
  | .branch b, c, c' => b.Takes c c'

def Block.Takes : Block → Cursor → Cursor → Prop
  | .mk stmts span, c, c' => ∃ c₁ c₂, c.Takes ['\x7b'] c₁ ∧ TakeStmts stmts c₁ c₂ ∧
      c₂.skip.Takes ['\x7d'] c' ∧ span = c.mark.spanTo c'.mark

def Branch.Takes : Branch → Cursor → Cursor → Prop
  | .mk condition body otherwise span, c, c' => ∃ c₁ c₂ c₃, c.Takes "if".toList c₁ ∧
      condition.Takes c₁.skip c₂ ∧ body.Takes c₂.skip c₃ ∧ otherwise.Takes c₃.skip c' ∧
      span = c.mark.spanTo c'.mark

def Otherwise.Takes : Otherwise → Cursor → Cursor → Prop
  | .nothing, c, c' => c' = c
  | .block body, c, c' => ∃ c₁, c.Takes "else".toList c₁ ∧ body.Takes c₁.skip c'
  | .branch b, c, c' => ∃ c₁, c.Takes "else".toList c₁ ∧ b.Takes c₁.skip c'

def TakeStmts : List Stmt → Cursor → Cursor → Prop
  | [], c, c' => c' = c
  | s :: ss, c, c' => ∃ c₁, s.Takes c.skip c₁ ∧ TakeStmts ss c₁ c'

end

theorem takeStmts_append {ss ts : List Stmt} {c c' : Cursor} :
    TakeStmts (ss ++ ts) c c' ↔ ∃ c₁, TakeStmts ss c c₁ ∧ TakeStmts ts c₁ c' := by
  induction ss generalizing c with
  | nil => simp [TakeStmts]
  | cons s ss ih =>
      simp only [List.cons_append, TakeStmts, ih]
      constructor
      · rintro ⟨c₁, first, c₂, others, behind⟩
        exact ⟨c₂, ⟨c₁, first, others⟩, behind⟩
      · rintro ⟨c₂, ⟨c₁, first, others⟩, behind⟩
        exact ⟨c₁, first, c₂, others, behind⟩

namespace Precedence

variable {α σ : Type}

/-- Operands lie one behind the other, each behind its operator. -/
inductive Chained (takes : α → σ → σ → Prop) (joins : BinOp → σ → σ → Prop) :
    List (BinOp × α) → σ → σ → Prop where
  | nil (a : σ) : Chained takes joins [] a a
  | cons {op : BinOp} {y : α} {links : List (BinOp × α)} {a b c d : σ} (joined : joins op a b)
      (operand : takes y b c) (others : Chained takes joins links c d) :
      Chained takes joins ((op, y) :: links) a d

variable {takes : α → σ → σ → Prop} {joins : BinOp → σ → σ → Prop}
  {combine : α → BinOp → α → α}

theorem collapse_chained
    (node : ∀ {x op y a b c d}, takes x a b → joins op b c → takes y c d →
      takes (combine x op y) a d)
    (level : Nat) {x : α} {links : List (BinOp × α)} {a b d : σ} (first : takes x a b)
    (chained : Chained takes joins links b d) :
    ∃ b', takes (collapse level combine x links).1 a b' ∧
      Chained takes joins (collapse level combine x links).2 b' d := by
  induction chained generalizing x a with
  | nil b => exact ⟨b, first, .nil b⟩
  | @cons op y links b c c₁ d joined operand others ih =>
      unfold collapse
      split
      · exact ih (node first joined operand)
      · obtain ⟨b', operand', others'⟩ := ih operand
        exact ⟨b, first, .cons joined operand' others'⟩

/-- The group of a chain takes all that its operands and operators take. -/
theorem resolve_chained
    (node : ∀ {x op y a b c d}, takes x a b → joins op b c → takes y c d →
      takes (combine x op y) a d)
    {x : α} {links : List (BinOp × α)} {a b d : σ} (first : takes x a b)
    (chained : Chained takes joins links b d) : takes (resolve combine x links) a d := by
  obtain ⟨_, product, products⟩ := collapse_chained node 2 first chained
  obtain ⟨_, sum, sums⟩ := collapse_chained node 1 product products
  obtain ⟨_, comparison, none⟩ := collapse_chained node 0 sum sums
  rw [collapse_all] at none
  cases none with
  | nil => exact comparison

end Precedence

def BinOp.Joins (op : BinOp) (c c' : Cursor) : Prop :=
  ∃ c₁, c.skip.Takes op.symbol.toList c₁ ∧ c' = c₁.skip

theorem Expr.Takes.binary {left right : Expr} {op : BinOp} {c c₁ c₂ c' : Cursor}
    (first : left.Takes c c₁) (joins : op.Joins c₁ c₂) (second : right.Takes c₂ c') :
    (Expr.binary left op right).Takes c c' := by
  obtain ⟨c₃, sign, rfl⟩ := joins
  unfold Expr.binary
  dsimp only
  split <;> exact ⟨c₁, c₃, first, sign, second, rfl⟩

namespace Grammar

open Recognizer

section

variable {c c' : Cursor}

theorem takes_symbol {x : Char} {u : Unit} (read : (symbol [x]).Reads c u c') : c.Takes [x] c' :=
  ⟨List.cons_ne_nil _ _, leads_symbol read⟩

theorem takes_identifier {ident : Ident} (read : identifier.Reads c ident c') :
    ident.Takes c c' := by
  have lexical : (Token.name ident.name).Lexical := (covers_identifier read).1
  exact ⟨⟨lexical.solid.1, leads_identifier read⟩, (reads_identifier.1 read).2.2⟩

theorem takes_constant {e : Expr} (read : constant.Reads c e c') :
    e.Takes c c' ∧ e.IsOperand := by
  obtain ⟨literal, rfl, lexical, leads⟩ := leads_constant read
  exact ⟨⟨⟨lexical.nonempty, leads⟩, rfl⟩, rfl⟩

theorem takes_operator {op : BinOp} (read : operator.Reads c op c') :
    c.Takes op.symbol.toList c' := by
  refine ⟨?_, leads_operator read⟩
  cases op <;> exact List.cons_ne_nil _ _

end

/-- The expressions that are read take the text, the trivia behind an operand included. -/
def ReadsTaking (p : Recognizer Expr) : Prop :=
  ∀ ⦃c c' : Cursor⦄ ⦃e : Expr⦄, p.Reads c e c' → ∃ c₁, e.Takes c c₁ ∧ c' = e.behind c₁

section

variable {p : Recognizer Expr} {bound : Nat} {c c' : Cursor} (taking : ReadsTaking p)

include taking

theorem takes_moreArgs {args : List Expr} {c c₀ : Cursor} (same : c₀.skip = c.skip)
    (read : ReadsMore (furtherArgument p) c₀ args c') :
    ∃ c₁, TakeMoreArgs args c c₁ ∧ c'.skip = c₁.skip := by
  induction read generalizing c with
  | done c₀ => exact ⟨c, rfl, same⟩
  | @more c₀ c₁ c' e args first others ih =>
      obtain ⟨c₂, comma, read⟩ := reads_furtherArgument.1 first
      obtain ⟨c₃, takes, rfl⟩ := taking read
      obtain ⟨c₄, more, same'⟩ := ih (e.skip_behind c₃)
      rw [same] at comma
      exact ⟨c₄, ⟨c₂, c₃, takes_symbol comma, takes, more⟩, same'⟩

theorem takes_arguments {args : List Expr} (read : (arguments p bound).Reads c.skip args c') :
    ∃ c₁, TakeArgs args c c₁ ∧ c'.skip = c₁.skip := by
  obtain ⟨first, others, c₁, rfl, read, more⟩ := reads_arguments.1 read
  obtain ⟨c₂, takes, rfl⟩ := taking read
  rcases more.of_many with ⟨rfl, rfl⟩ | ⟨e, others, c₃, rfl, further, more⟩
  · exact ⟨c₂, ⟨c₂, takes, rfl⟩, by simp⟩
  · have more : ReadsMore (furtherArgument p) (first.behind c₂) (e :: others) c' :=
      .more further more
    obtain ⟨c₄, takesMore, same⟩ := takes_moreArgs taking (first.skip_behind c₂) more
    exact ⟨c₄, ⟨c₂, takes, takesMore⟩, same⟩

theorem takes_call {callee : Ident} {args : List Expr} {span : Span}
    (read : (call p bound).Reads c (callee, args, span) c') :
    (Expr.call callee args span).Takes c c' := by
  obtain ⟨c₁, c₂, c₃, name, opened, given, closed, rfl⟩ := reads_call.1 read
  have inside : ∃ c₄, TakeArgs args c₂ c₄ ∧ c₃.skip = c₄.skip := by
    rcases reads_withDefault.1 given with given | ⟨_, rfl, rfl⟩
    · exact takes_arguments taking given
    · exact ⟨c₂, rfl, c₂.skip_skip⟩
  obtain ⟨c₄, takes, same⟩ := inside
  rw [same] at closed
  exact ⟨c₁, c₂, c₄, takes_identifier name, takes_symbol opened, takes, takes_symbol closed, rfl⟩

theorem takes_paren {e : Expr} (read : (paren p).Reads c e c') : e.Takes c c' ∧ e.IsOperand := by
  obtain ⟨inner, c₁, c₂, rfl, opened, read, closed⟩ := reads_paren.1 read
  obtain ⟨c₃, takes, rfl⟩ := taking read
  rw [inner.skip_behind] at closed
  exact ⟨⟨c₁, c₃, takes_symbol opened, takes, takes_symbol closed, rfl⟩, rfl⟩

theorem takes_term {e : Expr} (read : (term p bound).Reads c e c') :
    e.Takes c c' ∧ e.IsOperand := by
  rcases reads_term.1 read with read | ⟨_, read | ⟨_, read | ⟨_, read⟩⟩⟩
  · exact takes_constant read
  · obtain ⟨callee, args, span, rfl, called⟩ := reads_callOperand.1 read
    exact ⟨takes_call taking called, rfl⟩
  · obtain ⟨ident, rfl, named⟩ := reads_nameOperand.1 read
    exact ⟨takes_identifier named, rfl⟩
  · exact takes_paren taking read

/-- Operators and operands that are read are a chain. -/
theorem takes_links {links : List (BinOp × Expr)} {c₀ : Cursor}
    (read : ReadsMore (link p bound) c₀ links c') :
    Precedence.Chained Expr.Takes BinOp.Joins links c₀ c' ∧
      ∀ link ∈ links, link.2.IsOperand := by
  induction read with
  | done c₀ => exact ⟨.nil c₀, List.forall_mem_nil _⟩
  | @more c₀ c₁ c' link links first others ih =>
      obtain ⟨op, e⟩ := link
      obtain ⟨c₂, sign, operand⟩ := reads_link.1 first
      obtain ⟨takes, isOperand⟩ := takes_term taking operand
      obtain ⟨chained, operands⟩ := ih
      refine ⟨.cons ⟨c₂, takes_operator sign, rfl⟩ takes chained, ?_⟩
      exact List.forall_mem_cons.2 ⟨isOperand, operands⟩

end

theorem readsTaking_expression (bound : Nat) : ReadsTaking (expression bound) := by
  induction bound with
  | zero =>
      intro c c' e read
      exact absurd read not_reads_refuse
  | succ bound ih =>
      intro c c' e read
      obtain ⟨first, links, c₁, rfl, read, more⟩ := reads_expression.1 read
      obtain ⟨takes, isOperand⟩ := takes_term ih read
      rcases more.of_many with ⟨rfl, rfl⟩ | ⟨⟨op, e⟩, others, c₂, rfl, further, more⟩
      · exact ⟨c₁, takes, (if_pos isOperand).symm⟩
      · have more : ReadsMore (link (expression bound) bound) c₁ ((op, e) :: others) c' :=
          .more further more
        obtain ⟨chained, operands⟩ := takes_links ih more
        have whole := Precedence.resolve_chained Expr.Takes.binary takes chained
        refine ⟨c', whole, (if_neg fun single => ?_).symm⟩
        -- a group of several operands is no operand
        have none := (Expr.IsOperand.flat single).2.1
        rw [(resolve_spec isOperand operands).2.2] at none
        cases none

section

variable {c c' : Cursor}

theorem takes_word {rule : Rule} {word found : String} (visible : word.toList ≠ [])
    (read : (token rule (Lexeme.word word)).Reads c found c') : c.Takes word.toList c' :=
  ⟨visible, leads_word read⟩

theorem takes_loopKeyword {rule : Rule} {word : String}
    (read : (token rule (Lexeme.oneOf ["while", "until"])).Reads c word c') :
    c.Takes (loopKind word).keyword.toList c' := by
  obtain ⟨mem, leads⟩ := leads_loopKeyword read
  simp only [List.mem_cons, List.not_mem_nil, or_false] at mem
  rcases mem with rfl | rfl
  · exact ⟨List.cons_ne_nil _ _, leads⟩
  · exact ⟨List.cons_ne_nil _ _, leads⟩

theorem takes_simpleStmt {bound : Nat} {s : Stmt} (read : (simpleStmt bound).Reads c s c') :
    s.Takes c c' := by
  obtain ⟨c₁, read, closed⟩ := reads_simpleStmt.1 read
  rcases read with read | ⟨_, read⟩
  · obtain ⟨target, value, c₂, c₃, rfl, name, sign, read⟩ := reads_assignment.1 read
    obtain ⟨c₄, takes, rfl⟩ := readsTaking_expression bound read
    rw [value.skip_behind] at closed
    exact ⟨c₂, c₃, c₄, takes_identifier name, takes_symbol sign, takes, takes_symbol closed, rfl⟩
  · obtain ⟨callee, args, span, rfl, called⟩ := reads_callStmt.1 read
    exact ⟨c₁, takes_call (readsTaking_expression bound) called, takes_symbol closed⟩

end

section

variable {p : Recognizer Stmt} {q : Recognizer Branch} {bound : Nat} {c c' : Cursor}
  (taking : ∀ ⦃c c' : Cursor⦄ ⦃s : Stmt⦄, p.Reads c s c' → s.Takes c c')

include taking

theorem takes_moreStmts {stmts : List Stmt} (read : ReadsMore p c stmts c') :
    TakeStmts stmts c c' := by
  induction read with
  | done c => exact rfl
  | more first others ih => exact ⟨_, taking first, ih⟩

theorem takes_stmts {stmts : List Stmt} (read : (many bound p).Reads c.skip stmts c') :
    ∃ c₁, TakeStmts stmts c c₁ ∧ c'.skip = c₁.skip := by
  rcases read.of_many with ⟨rfl, rfl⟩ | ⟨s, others, c₁, rfl, first, more⟩
  · exact ⟨c, rfl, c.skip_skip⟩
  · exact ⟨c', ⟨c₁, taking first, takes_moreStmts taking more⟩, rfl⟩

theorem takes_block {b : Block} (read : (block p bound).Reads c b c') : b.Takes c c' := by
  obtain ⟨stmts, c₁, c₂, rfl, opened, read, closed⟩ := reads_block.1 read
  obtain ⟨c₃, takes, same⟩ := takes_stmts taking read
  rw [same] at closed
  exact ⟨c₁, c₃, takes_symbol opened, takes, takes_symbol closed, rfl⟩

theorem takes_otherwise
    (takingBranch : ∀ ⦃c c' : Cursor⦄ ⦃b : Branch⦄, q.Reads c b c' → b.Takes c c') {o : Otherwise}
    (read : (otherwise (block p bound) q).Reads c o c') : o.Takes c c' := by
  rcases reads_otherwise.1 read with read | ⟨_, rfl, rfl⟩
  · obtain ⟨word, c₁, keyword, read⟩ := reads_alternative.1 read
    have keyword : c.Takes "else".toList c₁ := takes_word (List.cons_ne_nil _ _) keyword
    rcases read with ⟨body, inner, rfl⟩ | ⟨_, b, inner, rfl⟩
    · exact ⟨c₁, keyword, takes_block taking inner⟩
    · exact ⟨c₁, keyword, takingBranch inner⟩
  · exact rfl

theorem takes_branch (links : Nat) ⦃c c' : Cursor⦄ ⦃b : Branch⦄
    (read : (branch (block p bound) bound links).Reads c b c') : b.Takes c c' := by
  induction links generalizing c c' b with
  | zero => exact absurd read not_reads_refuse
  | succ links ih =>
      obtain ⟨word, condition, body, other, c₁, c₂, c₃, rfl, keyword, guard, read, more⟩ :=
        reads_branch.1 read
      obtain ⟨c₄, takes, rfl⟩ := readsTaking_expression bound guard
      rw [condition.skip_behind] at read
      exact ⟨c₁, c₄, c₃, takes_word (List.cons_ne_nil _ _) keyword, takes, takes_block taking read,
        takes_otherwise taking ih more, rfl⟩

theorem takes_loop {s : Stmt} (read : (loop (block p bound) bound).Reads c s c') :
    s.Takes c c' := by
  obtain ⟨word, condition, body, other, c₁, c₂, c₃, rfl, keyword, guard, read, more⟩ :=
    reads_loop.1 read
  obtain ⟨c₄, takes, rfl⟩ := readsTaking_expression bound guard
  rw [condition.skip_behind] at read
  exact ⟨c₁, c₄, c₃, takes_loopKeyword keyword, takes, takes_block taking read,
    takes_otherwise taking (takes_branch taking bound) more, rfl⟩

end

theorem takes_stmt (bound : Nat) ⦃c c' : Cursor⦄ ⦃s : Stmt⦄
    (read : (stmt bound).Reads c s c') : s.Takes c c' := by
  induction bound generalizing c c' s with
  | zero => exact absurd read not_reads_refuse
  | succ bound ih =>
      rcases reads_stmt.1 read with simple | ⟨_, ⟨b, branched, rfl⟩ | ⟨_, looped⟩⟩
      · exact takes_simpleStmt simple
      · exact takes_branch ih bound branched
      · exact takes_loop ih looped

end Grammar

/-- The statements of a recognized program take the whole text, the trivia behind them apart. -/
theorem takes_of_recognize {text : String} {program : Program}
    (recognized : recognize text = .ok program) :
    ∃ c, TakeStmts program.stmts (Cursor.ofText text) c ∧ c.skip.rest = [] := by
  obtain ⟨_, read⟩ := recognize_eq_ok_iff.1 recognized
  obtain ⟨c₁, read, atEnd, _⟩ := Grammar.reads_program.1 read
  obtain ⟨c, takes, same⟩ := Grammar.takes_stmts (Grammar.takes_stmt _) read
  exact ⟨c, takes, same ▸ atEnd⟩

end TinyScript
