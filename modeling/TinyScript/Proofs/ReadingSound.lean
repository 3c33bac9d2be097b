import TinyScript.Proofs.Grouping
import TinyScript.Proofs.Productions
import TinyScript.Proofs.Terminals
import TinyScript.Reading.Parse

/-!
# What is read was rendered

Every rule of the grammar reads well-shaped trees only, and the characters it
reads are the tokens of the tree with trivia between them.
-/

namespace TinyScript.Grammar

open Recognizer

/-- The values read have a property, and the characters read are covered by their tokens. -/
def Sound {α : Type} (p : Recognizer α) (good : α → Prop) (tokens : α → List Token) : Prop :=
  ∀ ⦃c c' : Cursor⦄ ⦃a : α⦄, p.Reads c a c' → good a ∧ Covers (tokens a) c c'

section

variable {α : Type} {p : Recognizer α} {good : α → Prop} {tokens : α → List Token}

theorem Sound.readsMore (sound : Sound p good tokens) {c c' : Cursor} {as : List α}
    (read : ReadsMore p c as c') : (∀ a ∈ as, good a) ∧ Covers (as.flatMap tokens) c c' := by
  induction read with
  | done c => exact ⟨List.forall_mem_nil _, .refl c⟩
  | @more c c₁ c' a as first others ih =>
      obtain ⟨goodFirst, covers⟩ := sound first
      refine ⟨List.forall_mem_cons.mpr ⟨goodFirst, ih.1⟩, ?_⟩
      rw [List.flatMap_cons]
      exact (Covers.skip c).trans (covers.trans ih.2)

theorem Sound.many (sound : Sound p good tokens) (bound : Nat) :
    Sound (Recognizer.many bound p) (fun as => ∀ a ∈ as, good a) (fun as => as.flatMap tokens) := by
  intro c c' as read
  rcases read.of_many with ⟨rfl, rfl⟩ | ⟨a, others, c₁, rfl, first, more⟩
  · exact ⟨List.forall_mem_nil _, .refl _⟩
  · obtain ⟨goodFirst, covers⟩ := sound first
    obtain ⟨goodOthers, coversOthers⟩ := sound.readsMore more
    refine ⟨List.forall_mem_cons.mpr ⟨goodFirst, goodOthers⟩, ?_⟩
    dsimp only
    rw [List.flatMap_cons]
    exact covers.trans coversOthers

end

section

variable {p : Recognizer Expr} {bound : Nat}

theorem sound_furtherArgument (sound : Sound p Expr.Shaped Expr.tokens) :
    Sound (furtherArgument p) Expr.Shaped (fun e => .mark ',' :: e.tokens) := by
  intro c c' e read
  obtain ⟨c₁, comma, read⟩ := reads_furtherArgument.mp read
  obtain ⟨shaped, covers⟩ := sound read
  exact ⟨shaped, (covers_mark comma).cons covers⟩

theorem sound_arguments (sound : Sound p Expr.Shaped Expr.tokens) :
    Sound (arguments p bound) ShapedExprs argTokens := by
  intro c c' args read
  obtain ⟨first, others, c₁, rfl, read, more⟩ := reads_arguments.mp read
  obtain ⟨shaped, covers⟩ := sound read
  obtain ⟨shapedOthers, coversOthers⟩ := (sound_furtherArgument sound).many bound more
  refine ⟨⟨shaped, (shapedExprs_iff others).mpr shapedOthers⟩, ?_⟩
  rw [argTokens, moreArgTokens_eq]
  exact covers.append coversOthers

theorem sound_call (sound : Sound p Expr.Shaped Expr.tokens) :
    Sound (call p bound) (fun a => IsName a.1.name ∧ ShapedExprs a.2.1)
      (fun a => .name a.1.name :: .mark '(' :: (argTokens a.2.1 ++ [.mark ')'])) := by
  rintro c c' ⟨callee, args, span⟩ read
  obtain ⟨c₁, c₂, c₃, name, opened, read, closed, _⟩ := reads_call.mp read
  obtain ⟨isName, coversName⟩ := covers_identifier name
  have ⟨shaped, covers⟩ : ShapedExprs args ∧ Covers (argTokens args) c₂.skip c₃ := by
    rcases reads_withDefault.mp read with read | ⟨_, rfl, rfl⟩
    · exact sound_arguments sound read
    · exact ⟨trivial, .refl _⟩
  refine ⟨⟨isName, shaped⟩, ?_⟩
  exact coversName.cons ((covers_mark opened).cons (covers.append (covers_mark closed)))

theorem sound_paren (sound : Sound p Expr.Shaped Expr.tokens) :
    Sound (paren p) (fun e => e.IsOperand ∧ e.Shaped) Expr.tokens := by
  intro c c' e read
  obtain ⟨inner, c₁, c₂, rfl, opened, read, closed⟩ := reads_paren.mp read
  obtain ⟨shaped, covers⟩ := sound read
  refine ⟨⟨rfl, shaped⟩, ?_⟩
  rw [Expr.tokens]
  exact (covers_mark opened).cons (covers.append (covers_mark closed))

theorem sound_term (sound : Sound p Expr.Shaped Expr.tokens) :
    Sound (term p bound) (fun e => e.IsOperand ∧ e.Shaped) Expr.tokens := by
  intro c c' e read
  rcases reads_term.mp read with read | ⟨_, read | ⟨_, read | ⟨_, read⟩⟩⟩
  · obtain ⟨literal, span, rfl, lexical, covers⟩ := covers_constant read
    rw [Expr.tokens]
    exact ⟨⟨rfl, lexical⟩, covers⟩
  · obtain ⟨callee, args, span, rfl, called⟩ := reads_callOperand.mp read
    obtain ⟨shaped, covers⟩ := sound_call sound called
    rw [Expr.tokens]
    exact ⟨⟨rfl, shaped⟩, covers⟩
  · obtain ⟨ident, rfl, named⟩ := reads_nameOperand.mp read
    obtain ⟨isName, covers⟩ := covers_identifier named
    rw [Expr.tokens]
    exact ⟨⟨rfl, isName⟩, covers⟩
  · exact sound_paren sound read

theorem sound_link (sound : Sound p Expr.Shaped Expr.tokens) :
    Sound (link p bound) (fun link => link.2.IsOperand ∧ link.2.Shaped)
      (fun link => .operator link.1 :: link.2.tokens) := by
  rintro c c' ⟨op, e⟩ read
  obtain ⟨c₁, read, operand⟩ := reads_link.mp read
  obtain ⟨good, covers⟩ := sound_term sound operand
  exact ⟨good, (covers_operator read).cons covers⟩

end

/-- Expressions are read as well-shaped trees: resolving precedence groups the operands read. -/
theorem sound_expression (bound : Nat) : Sound (expression bound) Expr.Shaped Expr.tokens := by
  induction bound with
  | zero =>
      intro c c' e read
      exact absurd read not_reads_refuse
  | succ bound ih =>
      intro c c' e read
      obtain ⟨first, links, c₁, rfl, read, more⟩ := reads_expression.mp read
      obtain ⟨⟨operand, shaped⟩, covers⟩ := sound_term ih read
      obtain ⟨goodLinks, coversLinks⟩ := (sound_link ih).many bound more
      obtain ⟨grouped, sameFirst, sameLinks⟩ :=
        resolve_spec operand fun link mem => (goodLinks link mem).1
      rw [Expr.shaped_iff, Expr.tokens_eq, sameFirst, sameLinks]
      exact ⟨⟨grouped, shaped, fun link mem => (goodLinks link mem).2⟩, covers.append coversLinks⟩

theorem sound_simpleStmt (bound : Nat) : Sound (simpleStmt bound) Stmt.Shaped Stmt.tokens := by
  intro c c' s read
  obtain ⟨c₁, read, closed⟩ := reads_simpleStmt.mp read
  rcases read with read | ⟨_, read⟩
  · obtain ⟨target, value, c₂, c₃, rfl, name, sign, read⟩ := reads_assignment.mp read
    obtain ⟨isName, coversName⟩ := covers_identifier name
    obtain ⟨shaped, covers⟩ := sound_expression bound read
    rw [Stmt.tokens]
    exact ⟨⟨isName, shaped⟩,
      coversName.cons ((covers_mark sign).cons (covers.append (covers_mark closed)))⟩
  · obtain ⟨callee, args, span, rfl, called⟩ := reads_callStmt.mp read
    obtain ⟨shaped, covers⟩ := sound_call (sound_expression bound) called
    have whole := covers.append (covers_mark closed)
    rw [Stmt.tokens]
    exact ⟨shaped, by simpa using whole⟩

theorem covers_word {rule : Rule} {word text : String} (visible : word ≠ "") {c c' : Cursor}
    (read : (token rule (Lexeme.word word)).Reads c text c') : Covers [.keyword word] c c' := by
  obtain ⟨_, split, ends⟩ := Lexeme.word_eq_some_iff.mp (reads_token.mp read).1
  exact covers_keyword visible split ends

theorem covers_loopKeyword {rule : Rule} {word : String} {c c' : Cursor}
    (read : (token rule (Lexeme.oneOf ["while", "until"])).Reads c word c') :
    Covers [.keyword (loopKind word).keyword] c c' := by
  obtain ⟨mem, split, ends⟩ :=
    (Lexeme.oneOf_eq_some_iff Lexeme.wordy_loops).mp (reads_token.mp read).1
  rw [String.ofList_toList] at mem
  have same : (loopKind word).keyword = word ∧ word ≠ "" := by
    rcases List.mem_pair.mp mem with rfl | rfl <;> decide
  rw [same.1]
  exact covers_keyword same.2 split ends

section

variable {p : Recognizer Stmt} {q : Recognizer Branch} {bound : Nat}

theorem sound_block (sound : Sound p Stmt.Shaped Stmt.tokens) :
    Sound (block p bound) Block.Shaped Block.tokens := by
  intro c c' b read
  obtain ⟨stmts, c₁, c₂, rfl, opened, read, closed⟩ := reads_block.mp read
  obtain ⟨shaped, covers⟩ := sound.many bound read
  rw [Block.Shaped, shapedStmts_iff, Block.tokens, stmtTokens_eq]
  exact ⟨shaped, (covers_mark opened).cons (covers.append (covers_mark closed))⟩

theorem sound_otherwise (sound : Sound p Stmt.Shaped Stmt.tokens)
    (soundBranch : Sound q Branch.Shaped Branch.tokens) :
    Sound (otherwise (block p bound) q) Otherwise.Shaped Otherwise.tokens := by
  intro c c' o read
  rcases reads_otherwise.mp read with read | ⟨_, rfl, rfl⟩
  · obtain ⟨word, c₁, keyword, read⟩ := reads_alternative.mp read
    have coversKeyword := covers_word (by decide) keyword
    rcases read with ⟨body, inner, rfl⟩ | ⟨_, b, inner, rfl⟩
    · obtain ⟨shaped, covers⟩ := sound_block sound inner
      rw [Otherwise.tokens]
      exact ⟨shaped, coversKeyword.cons covers⟩
    · obtain ⟨shaped, covers⟩ := soundBranch inner
      rw [Otherwise.tokens]
      exact ⟨shaped, coversKeyword.cons covers⟩
  · exact ⟨trivial, .refl _⟩

theorem sound_branch (sound : Sound p Stmt.Shaped Stmt.tokens) (links : Nat) :
    Sound (branch (block p bound) bound links) Branch.Shaped Branch.tokens := by
  induction links with
  | zero =>
      intro c c' b read
      exact absurd read not_reads_refuse
  | succ links ih =>
      intro c c' b read
      obtain ⟨word, condition, body, other, c₁, c₂, c₃, rfl, keyword, guard, read, more⟩ :=
        reads_branch.mp read
      obtain ⟨shapedGuard, coversGuard⟩ := sound_expression bound guard
      obtain ⟨shapedBody, coversBody⟩ := sound_block sound read
      obtain ⟨shapedOther, coversOther⟩ := sound_otherwise sound ih more
      rw [Branch.tokens]
      exact ⟨⟨shapedGuard, shapedBody, shapedOther⟩,
        (covers_word (by decide) keyword).cons (coversGuard.append (coversBody.append coversOther))⟩

theorem sound_loop (sound : Sound p Stmt.Shaped Stmt.tokens) :
    Sound (loop (block p bound) bound) Stmt.Shaped Stmt.tokens := by
  intro c c' s read
  obtain ⟨word, condition, body, other, c₁, c₂, c₃, rfl, keyword, guard, read, more⟩ :=
    reads_loop.mp read
  obtain ⟨shapedGuard, coversGuard⟩ := sound_expression bound guard
  obtain ⟨shapedBody, coversBody⟩ := sound_block sound read
  obtain ⟨shapedOther, coversOther⟩ := sound_otherwise sound (sound_branch sound bound) more
  rw [Stmt.tokens]
  exact ⟨⟨shapedGuard, shapedBody, shapedOther⟩,
    (covers_loopKeyword keyword).cons (coversGuard.append (coversBody.append coversOther))⟩

end

theorem sound_stmt (bound : Nat) : Sound (stmt bound) Stmt.Shaped Stmt.tokens := by
  induction bound with
  | zero =>
      intro c c' s read
      exact absurd read not_reads_refuse
  | succ bound ih =>
      intro c c' s read
      rcases reads_stmt.mp read with simple | ⟨_, ⟨b, branched, rfl⟩ | ⟨_, looped⟩⟩
      · exact sound_simpleStmt bound simple
      · obtain ⟨shaped, covers⟩ := sound_branch ih bound branched
        rw [Stmt.tokens]
        exact ⟨shaped, covers⟩
      · exact sound_loop ih looped

end TinyScript.Grammar

namespace TinyScript

open Recognizer

/-- A text is recognized as a program if the grammar reads the program. -/
theorem recognize_eq_ok_iff {text : String} {program : Program} :
    recognize text = .ok program ↔
      ∃ c, (Grammar.program (text.toList.length + 1)).Reads (Cursor.ofText text) program c := by
  unfold recognize Reads
  lift_lets
  intro cursor
  generalize found : Grammar.program (cursor.rest.length + 1) cursor = reply
  have same : Grammar.program (text.toList.length + 1) (Cursor.ofText text) = reply := found
  rw [same]
  obtain ⟨result, frontier⟩ := reply
  rcases result with _ | ⟨tree, c⟩ <;> simp

/-- A text that is recognized is a rendering of the program it is read as. -/
theorem rendered_of_recognize {text : String} {program : Program}
    (read : recognize text = .ok program) :
    ShapedStmts program.stmts ∧ program.RenderedBy text := by
  obtain ⟨c, read⟩ := recognize_eq_ok_iff.mp read
  obtain ⟨c₁, read, atEnd, _, _⟩ := Grammar.reads_program.mp read
  obtain ⟨shaped, covers⟩ := (Grammar.sound_stmt _).many _ read
  refine ⟨(shapedStmts_iff _).mpr shaped, ?_⟩
  have ending : Spells [] c₁.skip.rest := ⟨atEnd ▸ .ending .nil, fun _ => rfl⟩
  have whole := (Covers.skip _).trans (covers.trans (Covers.skip _)) [] ending
  rw [Program.RenderedBy, Program.tokens, stmtTokens_eq]
  simpa [Cursor.ofText] using whole.1

end TinyScript
