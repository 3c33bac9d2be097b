import TinyScript.Proofs.Language
import TinyScript.Proofs.Lines

/-!
# Reading from place to place

Reading moves a cursor along the text, and the cursor never leaves it.  What an
expression inherits from the place where it is read and from its operands holds
of every expression of a script; the rules of the grammar are gone through once,
for all such properties.
-/

namespace TinyScript

/-- These characters lead from one cursor to another. -/
def Cursor.Leads (c : Cursor) (w : List Char) (c' : Cursor) : Prop :=
  c.rest = w ++ c'.rest ∧ c'.mark = c.mark.advance w

/-- Skipping counts the characters that it skips. -/
theorem skipTrivia_mark (inComment : Bool) (mark : Mark) (s : List Char) :
    ∃ w, s = w ++ (skipTrivia inComment mark s).rest ∧
      (skipTrivia inComment mark s).mark = mark.advance w := by
  induction s generalizing inComment mark with
  | nil => exact ⟨[], rfl, rfl⟩
  | cons d s ih =>
      have further (inside : Bool) : ∃ w, d :: s = w ++ (skipTrivia inside (mark.step d) s).rest ∧
          (skipTrivia inside (mark.step d) s).mark = mark.advance w := by
        obtain ⟨w, split, marked⟩ := ih inside (mark.step d)
        refine ⟨d :: w, ?_, marked⟩
        rw [List.cons_append, ← split]
      unfold skipTrivia
      split
      · exact further _
      · split
        · exact further _
        · split
          · exact further _
          · exact ⟨[], rfl, rfl⟩

theorem Cursor.leads_skip (c : Cursor) : ∃ w, c.Leads w c.skip :=
  skipTrivia_mark false c.mark c.rest

namespace Cursor.Within

variable {text : List Char} {c c' : Cursor}

theorem ofText (text : String) : (Cursor.ofText text).Within text.toList := ⟨[], rfl, rfl⟩

theorem behind (within : c.Within text) {w : List Char} (leads : c.Leads w c') :
    c'.Within text := by
  obtain ⟨front, whole, place⟩ := within
  obtain ⟨split, marked⟩ := leads
  refine ⟨front ++ w, ?_, ?_⟩
  · rw [whole, split, List.append_assoc]
  · rw [marked, place, Mark.advance, Mark.advance, Mark.advance, List.foldl_append]

theorem skip (within : c.Within text) : c.skip.Within text := by
  obtain ⟨w, leads⟩ := c.leads_skip
  exact within.behind leads

end Cursor.Within

mutual

/-- The expressions of a statement that are no operands; a call is an expression itself. -/
def Stmt.expressions : Stmt → List Expr
  | .assign _ value _ => [value]
  | .call callee args span => [.call callee args span]
  | .loop _ condition body otherwise _ =>
      condition :: (body.expressions ++ otherwise.expressions)
  | .branch b => b.expressions

def Block.expressions : Block → List Expr
  | .mk stmts _ => stmtExpressions stmts

def Branch.expressions : Branch → List Expr
  | .mk condition body otherwise _ => condition :: (body.expressions ++ otherwise.expressions)

def Otherwise.expressions : Otherwise → List Expr
  | .nothing => []
  | .block body => body.expressions
  | .branch b => b.expressions

def stmtExpressions : List Stmt → List Expr
  | [] => []
  | s :: ss => s.expressions ++ stmtExpressions ss

end

def Program.expressions (program : Program) : List Expr := stmtExpressions program.stmts

theorem forall_stmtExpressions {good : Expr → Prop} {ss : List Stmt} :
    (∀ e ∈ stmtExpressions ss, good e) ↔ ∀ s ∈ ss, ∀ e ∈ s.expressions, good e := by
  induction ss with
  | nil => simp [stmtExpressions]
  | cons s ss ih => rw [stmtExpressions, List.forall_mem_append, ih, List.forall_mem_cons]

namespace Precedence

variable {α : Type} {combine : α → BinOp → α → α} {good : α → Prop}

/-- What holds of all operands and is kept by combining holds of what a pass leaves. -/
theorem collapse_good (kept : ∀ x op y, good x → good y → good (combine x op y)) (level : Nat)
    {x : α} (first : good x) {links : List (BinOp × α)} (others : ∀ link ∈ links, good link.2) :
    good (collapse level combine x links).1 ∧
      ∀ link ∈ (collapse level combine x links).2, good link.2 := by
  induction links generalizing x with
  | nil => exact ⟨first, List.forall_mem_nil _⟩
  | cons link links ih =>
      obtain ⟨op, y⟩ := link
      rw [List.forall_mem_cons] at others
      unfold collapse
      split
      · exact ih (kept x op y first others.1) others.2
      · obtain ⟨operand, rest⟩ := ih others.1 others.2
        exact ⟨first, List.forall_mem_cons.2 ⟨operand, rest⟩⟩

theorem resolve_good (kept : ∀ x op y, good x → good y → good (combine x op y)) {x : α}
    (first : good x) {links : List (BinOp × α)} (others : ∀ link ∈ links, good link.2) :
    good (resolve combine x links) := by
  have products := collapse_good kept 2 first others
  have sums := collapse_good kept 1 products.1 products.2
  exact (collapse_good kept 0 sums.1 sums.2).1

end Precedence

namespace Grammar

open Recognizer

/-! ## Reading from place to place -/

/-- From places of a text, values with a property are read, and other places are reached. -/
def Traces {α : Type} (text : List Char) (p : Recognizer α) (good : α → Prop) : Prop :=
  ∀ ⦃c c' : Cursor⦄ ⦃a : α⦄, c.Within text → p.Reads c a c' → c'.Within text ∧ good a

section

variable {text : List Char} {α : Type} {p : Recognizer α} {good : α → Prop}

theorem Traces.readsMore (traces : Traces text p good) {c c' : Cursor} {as : List α}
    (within : c.Within text) (read : ReadsMore p c as c') :
    c'.Within text ∧ ∀ a ∈ as, good a := by
  induction read with
  | done c => exact ⟨within, List.forall_mem_nil _⟩
  | more first others ih =>
      obtain ⟨within', goodFirst⟩ := traces within.skip first
      obtain ⟨reached, goodOthers⟩ := ih within'
      exact ⟨reached, List.forall_mem_cons.2 ⟨goodFirst, goodOthers⟩⟩

theorem Traces.many (traces : Traces text p good) (bound : Nat) :
    Traces text (Recognizer.many bound p) fun as => ∀ a ∈ as, good a := by
  intro c c' as within read
  rcases read.of_many with ⟨rfl, rfl⟩ | ⟨a, others, c₁, rfl, first, more⟩
  · exact ⟨within, List.forall_mem_nil _⟩
  · obtain ⟨within', goodFirst⟩ := traces within first
    obtain ⟨reached, goodOthers⟩ := traces.readsMore within' more
    exact ⟨reached, List.forall_mem_cons.2 ⟨goodFirst, goodOthers⟩⟩

end

section

variable {c c' : Cursor}

theorem leads_symbol {chars : List Char} {u : Unit} (read : (symbol chars).Reads c u c') :
    c.Leads chars c' := by
  obtain ⟨found, marked⟩ := reads_symbol.1 read
  exact ⟨(Lexeme.exactly_eq_some_iff.1 found).2, marked⟩

theorem leads_word {rule : Rule} {word found : String}
    (read : (token rule (Lexeme.word word)).Reads c found c') : c.Leads word.toList c' := by
  obtain ⟨scanned, marked⟩ := reads_token.1 read
  obtain ⟨same, split, _⟩ := Lexeme.word_eq_some_iff.1 scanned
  rw [same] at marked
  exact ⟨split, marked⟩

theorem leads_loopKeyword {rule : Rule} {word : String}
    (read : (token rule (Lexeme.oneOf ["while", "until"])).Reads c word c') :
    word ∈ ["while", "until"] ∧ c.Leads word.toList c' := by
  obtain ⟨scanned, marked⟩ := reads_token.1 read
  obtain ⟨found, split, _⟩ := (Lexeme.oneOf_eq_some_iff Lexeme.wordy_loops).1 scanned
  rw [String.ofList_toList] at found
  exact ⟨found, split, marked⟩

theorem leads_operator {op : BinOp} (read : operator.Reads c op c') :
    c.Leads op.symbol.toList c' := by
  simp only [operator, reads_orElse, reads_operatorOf] at read
  have found : Lexeme.exactly op.symbol.toList c.rest = some (op.symbol.toList, c'.rest) ∧
      c'.mark = c.mark.advance op.symbol.toList := by
    rcases read with
      read | ⟨_, read | ⟨_, read | ⟨_, read | ⟨_, read | ⟨_, read | ⟨_, read⟩⟩⟩⟩⟩⟩ <;>
      · obtain ⟨rfl, found⟩ := read
        exact found
  exact ⟨(Lexeme.exactly_eq_some_iff.1 found.1).2, found.2⟩

theorem leads_identifier {ident : Ident} (read : identifier.Reads c ident c') :
    c.Leads ident.name.toList c' := by
  obtain ⟨found, marked, _⟩ := reads_identifier.1 read
  exact ⟨(Lexeme.identifier_eq_some_iff.1 found).1, marked⟩

theorem leads_constant {e : Expr} (read : constant.Reads c e c') :
    ∃ literal : Literal, e = .const literal (c.mark.spanTo c'.mark) ∧ literal.IsLexical ∧
      c.Leads literal.text.toList c' := by
  obtain ⟨literal, same, found, marked, _⟩ := reads_constant.1 read
  obtain ⟨lexical, split⟩ := isLexical_of_scan found
  exact ⟨literal, same, lexical, split, marked⟩

end

/--
A property that expressions have from the place where they are read, and from
the expressions that they are made of.
-/
structure Inherited (text : List Char) (good : Expr → Prop) : Prop where
  constant : ∀ ⦃c c' : Cursor⦄ ⦃e : Expr⦄, c.Within text → Grammar.constant.Reads c e c' → good e
  name : ∀ ⦃c c' : Cursor⦄ ⦃ident : Ident⦄, c.Within text → identifier.Reads c ident c' →
    good (.ident ident.name (c.mark.spanTo c'.mark))
  call : ∀ ⦃c c₁ : Cursor⦄ ⦃callee : Ident⦄ ⦃args : List Expr⦄ (stop : Mark), c.Within text →
    identifier.Reads c callee c₁ → (∀ e ∈ args, good e) →
    good (.call callee args (c.mark.spanTo stop))
  paren : ∀ ⦃c c₁ : Cursor⦄ ⦃inner : Expr⦄ (stop : Mark), c.Within text →
    (symbol ['(']).Reads c () c₁ → good inner → good (.paren inner (c.mark.spanTo stop))
  binary : ∀ x op y, good x → good y → good (.binary x op y)

section

variable {text : List Char} {good : Expr → Prop} (inherited : Inherited text good)

section

variable {p : Recognizer Expr} {bound : Nat}

theorem traces_furtherArgument (traces : Traces text p good) :
    Traces text (furtherArgument p) good := by
  intro c c' e within read
  obtain ⟨c₁, comma, read⟩ := reads_furtherArgument.1 read
  exact traces (within.behind (leads_symbol comma)).skip read

theorem traces_arguments (traces : Traces text p good) :
    Traces text (arguments p bound) fun args => ∀ e ∈ args, good e := by
  intro c c' args within read
  obtain ⟨first, others, c₁, rfl, read, more⟩ := reads_arguments.1 read
  obtain ⟨within', goodFirst⟩ := traces within read
  obtain ⟨reached, goodOthers⟩ := (traces_furtherArgument traces).many bound within'.skip more
  exact ⟨reached, List.forall_mem_cons.2 ⟨goodFirst, goodOthers⟩⟩

include inherited

theorem traces_call (traces : Traces text p good) :
    Traces text (call p bound) fun a => good (.call a.1 a.2.1 a.2.2) := by
  rintro c c' ⟨callee, args, span⟩ within read
  obtain ⟨c₁, c₂, c₃, name, opened, given, closed, rfl⟩ := reads_call.1 read
  have inside := ((within.behind (leads_identifier name)).skip.behind (leads_symbol opened)).skip
  have ⟨within', goodArgs⟩ : c₃.Within text ∧ ∀ e ∈ args, good e := by
    rcases reads_withDefault.1 given with given | ⟨_, rfl, rfl⟩
    · exact traces_arguments traces inside given
    · exact ⟨inside, List.forall_mem_nil _⟩
  exact ⟨within'.skip.behind (leads_symbol closed), inherited.call _ within name goodArgs⟩

theorem traces_paren (traces : Traces text p good) : Traces text (paren p) good := by
  intro c c' e within read
  obtain ⟨inner, c₁, c₂, rfl, opened, read, closed⟩ := reads_paren.1 read
  obtain ⟨within', goodInner⟩ := traces (within.behind (leads_symbol opened)).skip read
  exact ⟨within'.skip.behind (leads_symbol closed), inherited.paren _ within opened goodInner⟩

theorem traces_term (traces : Traces text p good) : Traces text (term p bound) good := by
  intro c c' e within read
  rcases reads_term.1 read with read | ⟨_, read | ⟨_, read | ⟨_, read⟩⟩⟩
  · obtain ⟨_, _, _, leads⟩ := leads_constant read
    exact ⟨within.behind leads, inherited.constant within read⟩
  · obtain ⟨callee, args, span, rfl, called⟩ := reads_callOperand.1 read
    exact traces_call inherited traces within called
  · obtain ⟨ident, rfl, named⟩ := reads_nameOperand.1 read
    refine ⟨within.behind (leads_identifier named), ?_⟩
    rw [(reads_identifier.1 named).2.2]
    exact inherited.name within named
  · exact traces_paren inherited traces within read

theorem traces_link (traces : Traces text p good) :
    Traces text (link p bound) fun link => good link.2 := by
  rintro c c' ⟨op, e⟩ within read
  obtain ⟨c₁, read, operand⟩ := reads_link.1 read
  exact traces_term inherited traces (within.behind (leads_operator read)).skip operand

end

include inherited

theorem traces_expression (bound : Nat) : Traces text (expression bound) good := by
  induction bound with
  | zero =>
      intro c c' e within read
      exact absurd read not_reads_refuse
  | succ bound ih =>
      intro c c' e within read
      obtain ⟨first, links, c₁, rfl, read, more⟩ := reads_expression.1 read
      obtain ⟨within', goodFirst⟩ := traces_term inherited ih within read
      obtain ⟨reached, goodLinks⟩ := (traces_link inherited ih).many bound within'.skip more
      exact ⟨reached, Precedence.resolve_good inherited.binary goodFirst goodLinks⟩

theorem traces_simpleStmt (bound : Nat) :
    Traces text (simpleStmt bound) fun s => ∀ e ∈ s.expressions, good e := by
  intro c c' s within read
  obtain ⟨c₁, read, closed⟩ := reads_simpleStmt.1 read
  have ⟨within', goodStmt⟩ : c₁.Within text ∧ ∀ e ∈ s.expressions, good e := by
    rcases read with read | ⟨_, read⟩
    · obtain ⟨target, value, c₂, c₃, rfl, name, sign, read⟩ := reads_assignment.1 read
      have inside := ((within.behind (leads_identifier name)).skip.behind (leads_symbol sign)).skip
      obtain ⟨within', goodValue⟩ := traces_expression inherited bound inside read
      exact ⟨within', List.forall_mem_singleton.2 goodValue⟩
    · obtain ⟨callee, args, span, rfl, called⟩ := reads_callStmt.1 read
      obtain ⟨within', goodCall⟩ :=
        traces_call inherited (traces_expression inherited bound) within called
      exact ⟨within', List.forall_mem_singleton.2 goodCall⟩
  exact ⟨within'.skip.behind (leads_symbol closed), goodStmt⟩

section

variable {p : Recognizer Stmt} {q : Recognizer Branch} {bound : Nat}
  (traces : Traces text p fun s => ∀ e ∈ s.expressions, good e)

omit inherited
include traces

theorem traces_block :
    Traces text (block p bound) fun b => ∀ e ∈ b.expressions, good e := by
  intro c c' b within read
  obtain ⟨stmts, c₁, c₂, rfl, opened, read, closed⟩ := reads_block.1 read
  obtain ⟨within', goodStmts⟩ := traces.many bound (within.behind (leads_symbol opened)).skip read
  exact ⟨within'.skip.behind (leads_symbol closed), forall_stmtExpressions.2 goodStmts⟩

theorem traces_otherwise (tracesBranch : Traces text q fun b => ∀ e ∈ b.expressions, good e) :
    Traces text (otherwise (block p bound) q) fun o => ∀ e ∈ o.expressions, good e := by
  intro c c' o within read
  rcases reads_otherwise.1 read with read | ⟨_, rfl, rfl⟩
  · obtain ⟨word, c₁, keyword, read⟩ := reads_alternative.1 read
    have inside := (within.behind (leads_word keyword)).skip
    rcases read with ⟨body, inner, rfl⟩ | ⟨_, b, inner, rfl⟩
    · exact traces_block traces inside inner
    · exact tracesBranch inside inner
  · exact ⟨within, List.forall_mem_nil _⟩

include inherited

theorem traces_guarded (tracesBranch : Traces text q fun b => ∀ e ∈ b.expressions, good e)
    {c₁ c₂ c₃ c' : Cursor} {condition : Expr} {body : Block} {other : Otherwise}
    (within : c₁.Within text) (guard : (expression bound).Reads c₁.skip condition c₂)
    (read : (block p bound).Reads c₂.skip body c₃)
    (more : (otherwise (block p bound) q).Reads c₃.skip other c') :
    c'.Within text ∧
      ∀ e ∈ condition :: (body.expressions ++ other.expressions), good e := by
  obtain ⟨within₂, goodGuard⟩ := traces_expression inherited bound within.skip guard
  obtain ⟨within₃, goodBody⟩ := traces_block traces within₂.skip read
  obtain ⟨reached, goodOther⟩ := traces_otherwise traces tracesBranch within₃.skip more
  refine ⟨reached, List.forall_mem_cons.2 ⟨goodGuard, ?_⟩⟩
  exact List.forall_mem_append.2 ⟨goodBody, goodOther⟩

theorem traces_branch (links : Nat) :
    Traces text (branch (block p bound) bound links) fun b => ∀ e ∈ b.expressions, good e := by
  induction links with
  | zero =>
      intro c c' b within read
      exact absurd read not_reads_refuse
  | succ links ih =>
      intro c c' b within read
      obtain ⟨word, condition, body, other, c₁, c₂, c₃, rfl, keyword, guard, read, more⟩ :=
        reads_branch.1 read
      exact traces_guarded inherited traces ih (within.behind (leads_word keyword)) guard read more

theorem traces_loop :
    Traces text (loop (block p bound) bound) fun s => ∀ e ∈ s.expressions, good e := by
  intro c c' s within read
  obtain ⟨word, condition, body, other, c₁, c₂, c₃, rfl, keyword, guard, read, more⟩ :=
    reads_loop.1 read
  exact traces_guarded inherited traces (traces_branch inherited traces bound)
    (within.behind (leads_loopKeyword keyword).2) guard read more

end

theorem traces_stmt (bound : Nat) :
    Traces text (stmt bound) fun s => ∀ e ∈ s.expressions, good e := by
  induction bound with
  | zero =>
      intro c c' s within read
      exact absurd read not_reads_refuse
  | succ bound ih =>
      intro c c' s within read
      rcases reads_stmt.1 read with simple | ⟨_, ⟨b, branched, rfl⟩ | ⟨_, looped⟩⟩
      · exact traces_simpleStmt inherited bound within simple
      · exact traces_branch inherited ih bound within branched
      · exact traces_loop inherited ih within looped

end

/-- All expressions of a program that is recognized have what they inherit. -/
theorem Inherited.of_recognize {text : String} {good : Expr → Prop}
    (inherited : Inherited text.toList good) {program : Program}
    (recognized : recognize text = .ok program) : ∀ e ∈ program.expressions, good e := by
  obtain ⟨c, read⟩ := recognize_eq_ok_iff.1 recognized
  obtain ⟨c₁, read, _⟩ := reads_program.1 read
  have traced := (traces_stmt inherited _).many _ (Cursor.Within.ofText _).skip read
  exact forall_stmtExpressions.2 traced.2

end Grammar

end TinyScript
