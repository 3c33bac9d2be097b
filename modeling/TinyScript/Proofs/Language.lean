import TinyScript.Proofs.Brackets
import TinyScript.Proofs.Heights
import TinyScript.Proofs.ReadingSound
import TinyScript.Proofs.RestoringStatements

/-!
# The language of scripts

Reading accepts exactly the renderings of well-shaped programs, and gives the
program rendered, its places apart.  No text renders two programs.
-/

namespace TinyScript

mutual

theorem Expr.erase_keeps : (e : Expr) →
    (e.erase.Shaped ↔ e.Shaped) ∧ e.erase.tokens = e.tokens ∧ e.erase.height = e.height ∧
      e.erase.brackets = e.brackets
  | .const literal span => ⟨Iff.rfl, rfl, rfl, rfl⟩
  | .ident name span => ⟨Iff.rfl, rfl, rfl, rfl⟩
  | .call callee args span => by
      obtain ⟨shaped, tokens, _, height, brackets⟩ := erase_keeps_exprs args
      simp [Expr.erase, Ident.erase, Expr.Shaped, Expr.tokens, Expr.height, Expr.brackets, shaped,
        tokens, height, brackets]
  | .additive left op right span => by
      obtain ⟨shaped₁, tokens₁, height₁, brackets₁⟩ := left.erase_keeps
      obtain ⟨shaped₂, tokens₂, height₂, brackets₂⟩ := right.erase_keeps
      simp [Expr.erase, Expr.Shaped, Groups, Grammar.binding_erase, Expr.tokens, Expr.height,
        Expr.brackets, *]
  | .comparison left op right span => by
      obtain ⟨shaped₁, tokens₁, height₁, brackets₁⟩ := left.erase_keeps
      obtain ⟨shaped₂, tokens₂, height₂, brackets₂⟩ := right.erase_keeps
      simp [Expr.erase, Expr.Shaped, Groups, Grammar.binding_erase, Expr.tokens, Expr.height,
        Expr.brackets, *]
  | .paren inner span => by
      obtain ⟨shaped, tokens, height, brackets⟩ := inner.erase_keeps
      simp [Expr.erase, Expr.Shaped, Expr.tokens, Expr.height, Expr.brackets, *]

theorem erase_keeps_exprs : (es : List Expr) →
    (ShapedExprs (eraseExprs es) ↔ ShapedExprs es) ∧ argTokens (eraseExprs es) = argTokens es ∧
      moreArgTokens (eraseExprs es) = moreArgTokens es ∧ tallest (eraseExprs es) = tallest es ∧
      mostBrackets (eraseExprs es) = mostBrackets es
  | [] => ⟨Iff.rfl, rfl, rfl, rfl, rfl⟩
  | e :: es => by
      obtain ⟨shaped₁, tokens₁, height₁, brackets₁⟩ := e.erase_keeps
      obtain ⟨shaped₂, _, tokens₂, height₂, brackets₂⟩ := erase_keeps_exprs es
      simp [eraseExprs, ShapedExprs, argTokens, moreArgTokens, tallest, mostBrackets, *]

end

mutual

theorem Stmt.erase_keeps : (s : Stmt) →
    (s.erase.Shaped ↔ s.Shaped) ∧ s.erase.tokens = s.tokens ∧ s.erase.tallest = s.tallest ∧
      s.erase.brackets = s.brackets
  | .assign target value span => by
      obtain ⟨shaped, tokens, height, brackets⟩ := value.erase_keeps
      simp [Stmt.erase, Ident.erase, Stmt.Shaped, Stmt.tokens, Stmt.tallest, Stmt.brackets, *]
  | .call callee args span => by
      obtain ⟨shaped, tokens, _, height, brackets⟩ := erase_keeps_exprs args
      simp [Stmt.erase, Ident.erase, Stmt.Shaped, Stmt.tokens, Stmt.tallest, Stmt.brackets, *]
  | .loop kind condition body otherwise span => by
      obtain ⟨shaped₁, tokens₁, height₁, brackets₁⟩ := condition.erase_keeps
      obtain ⟨shaped₂, tokens₂, height₂, brackets₂⟩ := body.erase_keeps
      obtain ⟨shaped₃, tokens₃, height₃, brackets₃⟩ := otherwise.erase_keeps
      simp [Stmt.erase, Stmt.Shaped, Stmt.tokens, Stmt.tallest, Stmt.brackets, *]
  | .branch b => by
      obtain ⟨shaped, tokens, height, brackets⟩ := b.erase_keeps
      simp [Stmt.erase, Stmt.Shaped, Stmt.tokens, Stmt.tallest, Stmt.brackets, *]

theorem Block.erase_keeps : (b : Block) →
    (b.erase.Shaped ↔ b.Shaped) ∧ b.erase.tokens = b.tokens ∧ b.erase.tallest = b.tallest ∧
      b.erase.brackets = b.brackets
  | .mk stmts span => by
      obtain ⟨shaped, tokens, height, brackets⟩ := erase_keeps_stmts stmts
      simp [Block.erase, Block.Shaped, Block.tokens, Block.tallest, Block.brackets, *]

theorem Branch.erase_keeps : (b : Branch) →
    (b.erase.Shaped ↔ b.Shaped) ∧ b.erase.tokens = b.tokens ∧ b.erase.tallest = b.tallest ∧
      b.erase.brackets = b.brackets
  | .mk condition body otherwise span => by
      obtain ⟨shaped₁, tokens₁, height₁, brackets₁⟩ := condition.erase_keeps
      obtain ⟨shaped₂, tokens₂, height₂, brackets₂⟩ := body.erase_keeps
      obtain ⟨shaped₃, tokens₃, height₃, brackets₃⟩ := otherwise.erase_keeps
      simp [Branch.erase, Branch.Shaped, Branch.tokens, Branch.tallest, Branch.brackets, *]

theorem Otherwise.erase_keeps : (o : Otherwise) →
    (o.erase.Shaped ↔ o.Shaped) ∧ o.erase.tokens = o.tokens ∧ o.erase.tallest = o.tallest ∧
      o.erase.brackets = o.brackets
  | .nothing => ⟨Iff.rfl, rfl, rfl, rfl⟩
  | .block body => by
      obtain ⟨shaped, tokens, height, brackets⟩ := body.erase_keeps
      simp [Otherwise.erase, Otherwise.Shaped, Otherwise.tokens, Otherwise.tallest,
        Otherwise.brackets, *]
  | .branch b => by
      obtain ⟨shaped, tokens, height, brackets⟩ := b.erase_keeps
      simp [Otherwise.erase, Otherwise.Shaped, Otherwise.tokens, Otherwise.tallest,
        Otherwise.brackets, *]

theorem erase_keeps_stmts : (ss : List Stmt) →
    (ShapedStmts (eraseStmts ss) ↔ ShapedStmts ss) ∧ stmtTokens (eraseStmts ss) = stmtTokens ss ∧
      tallestOf (eraseStmts ss) = tallestOf ss ∧ mostBracketsOf (eraseStmts ss) = mostBracketsOf ss
  | [] => ⟨Iff.rfl, rfl, rfl, rfl⟩
  | s :: ss => by
      obtain ⟨shaped₁, tokens₁, height₁, brackets₁⟩ := s.erase_keeps
      obtain ⟨shaped₂, tokens₂, height₂, brackets₂⟩ := erase_keeps_stmts ss
      simp [eraseStmts, ShapedStmts, stmtTokens, tallestOf, mostBracketsOf, *]

end

/-- Whether a program is well shaped does not depend on its places. -/
theorem Program.wellShaped_erase (program : Program) :
    program.erase.WellShaped ↔ program.WellShaped := by
  obtain ⟨shaped, _, height, brackets⟩ := erase_keeps_stmts program.stmts
  constructor
  · rintro ⟨isShaped, low, shallow⟩
    exact ⟨shaped.mp isShaped, height ▸ low, brackets ▸ shallow⟩
  · rintro ⟨isShaped, low, shallow⟩
    exact ⟨shaped.mpr isShaped, height.symm ▸ low, brackets.symm ▸ shallow⟩

/-- Which texts render a program does not depend on its places. -/
theorem Program.renderedBy_erase (program : Program) (text : String) :
    program.erase.RenderedBy text ↔ program.RenderedBy text := by
  obtain ⟨_, tokens, _, _⟩ := erase_keeps_stmts program.stmts
  rw [Program.RenderedBy, Program.RenderedBy, Program.tokens, Program.tokens]
  exact iff_of_eq (congrArg (Renders false · text.toList) tokens)

theorem Renders.length_le {afterKeyword : Bool} {ts : List Token} {s : List Char}
    (rendered : Renders afterKeyword ts s) (solid : ∀ t ∈ ts, t.Solid) : ts.length ≤ s.length := by
  induction rendered with
  | ending gap => exact Nat.zero_le _
  | @token _ t ts w s gap apart rest ih =>
      rw [List.forall_mem_cons] at solid
      have others := ih solid.2
      have nonempty := List.length_pos_iff.mpr solid.1.1
      rw [List.length_cons, List.length_append, List.length_append]
      omega

/-- A rendering of well-shaped statements is recognized as what it renders, places apart. -/
theorem recognize_of_rendered {text : String} {program : Program}
    (shaped : ShapedStmts program.stmts) (rendered : program.RenderedBy text) :
    ∃ read, recognize text = .ok read ∧ read.erase = program.erase := by
  have solid : ∀ t ∈ program.tokens, t.Solid :=
    fun t mem => (lexical_stmtTokens shaped t mem).solid
  have enough : (stmtTokens program.stmts).length ≤ text.toList.length + 1 :=
    Nat.le_succ_of_le (rendered.length_le solid)
  have ahead : Ahead (stmtTokens program.stmts ++ []) (Cursor.ofText text) := by
    rw [List.append_nil]
    exact ⟨⟨false, rendered⟩, solid⟩
  have ending : ∀ ts, ts = [] → Grammar.Settled ts := by
    rintro _ rfl
    exact Grammar.settled_nil
  have stop : ∀ c ts, ts = [] → Stands ts c →
      (Grammar.stmt (text.toList.length + 1)).Refuses c := by
    rintro c _ rfl stands
    exact Grammar.refuses_stmt stands.faces_nil _
  obtain ⟨ss, c, read, same, ahead'⟩ :=
    Grammar.restores_stmts (Grammar.restores_stmt _) ending stop shaped enough rfl ahead.skip
  refine ⟨⟨ss, (Cursor.ofText text).mark.spanTo c.skip.mark⟩,
    recognize_eq_ok_iff.mpr ⟨c.skip, ?_⟩, ?_⟩
  · exact Grammar.reads_program.mpr ⟨c, read, ahead'.skip.standing, rfl, rfl⟩
  · rw [Program.erase, Program.erase, eraseStmts_eq, eraseStmts_eq, same]

theorem mapError_succeeds {ε δ α : Type} {x : Except ε α} {f : ε → δ} {a : α} :
    x.mapError f = .ok a ↔ x = .ok a := by
  cases x <;> simp [Except.mapError]

/-- Reading succeeds if no bracket is too deep, the grammar matches and no height is too large. -/
theorem ofText_eq_ok_iff {text : String} {program : Program} :
    Program.ofText text = .ok program ↔
      Nesting.tooDeep? text.toList = none ∧ recognize text = .ok program ∧
        program.measure = .ok () := by
  unfold Program.ofText
  generalize recognize text = found
  cases deep : Nesting.tooDeep? text.toList with
  | some mark => exact iff_of_false (fun impossible => by cases impossible) (by simp)
  | none =>
      change (found.mapError Fault.expected >>= fun read =>
        read.measure.mapError Fault.height >>= fun _ => .ok read) = .ok program ↔ _
      simp only [bind_succeeds, mapError_succeeds, true_and]
      constructor
      · rintro ⟨_, recognized, _, measured, same⟩
        cases same
        exact ⟨recognized, measured⟩
      · rintro ⟨recognized, measured⟩
        exact ⟨program, recognized, (), measured, rfl⟩

theorem parse_eq_ok_iff {source : Source} {program : Program} :
    source.parse = .ok program ↔ Program.ofText source.text = .ok program := by
  unfold Source.parse
  exact mapError_succeeds

/-- A program that is read is well shaped, and the text renders it. -/
theorem rendered_of_parse {source : Source} {program : Program}
    (read : source.parse = .ok program) :
    program.WellShaped ∧ program.RenderedBy source.text := by
  obtain ⟨notDeep, recognized, measured⟩ := ofText_eq_ok_iff.mp (parse_eq_ok_iff.mp read)
  obtain ⟨shaped, rendered⟩ := rendered_of_recognize recognized
  refine ⟨⟨shaped, ?_, ?_⟩, rendered⟩
  · exact (measure_stmts program.stmts).mp measured
  · exact (Nesting.tooDeep_eq_none_iff shaped rendered).mp notDeep

/-- A text that renders a well-shaped program is read as it, its places apart. -/
theorem parse_of_rendered {source : Source} {program : Program} (wellShaped : program.WellShaped)
    (rendered : program.RenderedBy source.text) :
    ∃ read, source.parse = .ok read ∧ read.erase = program.erase := by
  obtain ⟨read, recognized, same⟩ := recognize_of_rendered wellShaped.shaped rendered
  have wellRead : read.WellShaped := by
    rw [← Program.wellShaped_erase, same, Program.wellShaped_erase]
    exact wellShaped
  have renderedRead : read.RenderedBy source.text := by
    rw [← Program.renderedBy_erase, same, Program.renderedBy_erase]
    exact rendered
  refine ⟨read, parse_eq_ok_iff.mpr (ofText_eq_ok_iff.mpr ⟨?_, recognized, ?_⟩), same⟩
  · exact (Nesting.tooDeep_eq_none_iff wellRead.shaped renderedRead).mpr wellRead.shallow
  · exact (measure_stmts read.stmts).mpr wellRead.low

/-- No text renders two well-shaped programs, their places apart. -/
theorem Program.WellShaped.erase_unique {program₁ program₂ : Program} {text : String}
    (wellShaped₁ : program₁.WellShaped) (wellShaped₂ : program₂.WellShaped)
    (rendered₁ : program₁.RenderedBy text) (rendered₂ : program₂.RenderedBy text) :
    program₁.erase = program₂.erase := by
  obtain ⟨read₁, parsed₁, same₁⟩ :
      ∃ read, Source.parse ⟨"", text⟩ = .ok read ∧ read.erase = program₁.erase :=
    parse_of_rendered wellShaped₁ rendered₁
  obtain ⟨read₂, parsed₂, same₂⟩ :
      ∃ read, Source.parse ⟨"", text⟩ = .ok read ∧ read.erase = program₂.erase :=
    parse_of_rendered wellShaped₂ rendered₂
  cases parsed₁.symm.trans parsed₂
  exact same₁.symm.trans same₂

end TinyScript
