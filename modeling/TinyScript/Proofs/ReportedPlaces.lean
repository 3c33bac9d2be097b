import TinyScript.Proofs.Attempts
import TinyScript.Proofs.OpenBrackets
import TinyScript.Proofs.Relocating
import TinyScript.Proofs.TallNodes

/-!
# Places that are reported

Errors are reported where a character can be seen, or at the end of the text.
The bracket that nests too deep is such a character.  Rules of the grammar are
tried behind trivia only, so the furthest of them failed at no blank.  And the
statements of a script, those inside of others included, begin with visible
characters, as its expressions do.
-/

namespace TinyScript

/-- A position is that of a visible character of a text. -/
def Visible (text : List Char) (p : Position) : Prop :=
  ∃ (c : Cursor) (d : Char) (rest : List Char), c.Within text ∧ c.rest = d :: rest ∧
    Lexeme.isBlank d = false ∧ p = c.mark.position

/-- A position is that of a visible character of a text, or the one behind its last character. -/
def Reported (text : List Char) (p : Position) : Prop :=
  Visible text p ∨ p = (Mark.origin.advance text).position

/-- Where skipping has ended, no blank is ahead. -/
theorem Cursor.not_isBlank_of_skip {c : Cursor} (skipped : c.skip = c) {d : Char}
    {rest : List Char} (ahead : c.rest = d :: rest) : Lexeme.isBlank d = false := by
  by_contra blank
  obtain ⟨w, split, _⟩ := skipTrivia_mark false (c.mark.step d) rest
  have stepped : c.skip = skipTrivia false (c.mark.step d) rest := by
    rw [Cursor.skip, ahead, skipTrivia, if_neg Bool.false_ne_true, if_pos (by simpa using blank)]
  -- skipping a blank leaves fewer characters ahead
  rw [← stepped, skipped, ahead] at split
  have length := congrArg List.length split
  rw [List.length_append, List.length_cons] at length
  omega

section

variable {text : List Char} {c c' : Cursor}

/-- What is taken behind trivia begins with a visible character. -/
theorem Cursor.Within.visible (within : c.Within text) (skipped : c.skip = c) {w : List Char}
    (takes : c.Takes w c') : Visible text c.mark.position := by
  obtain ⟨nonempty, split, _⟩ := takes
  obtain ⟨d, more, rfl⟩ := List.exists_cons_of_ne_nil nonempty
  exact ⟨c, d, _, within, split, Cursor.not_isBlank_of_skip skipped split, rfl⟩

theorem Cursor.Within.mark_of_atEnd (within : c.Within text) (atEnd : c.rest = []) :
    c.mark = Mark.origin.advance text := by
  obtain ⟨front, split, marked⟩ := within
  rw [atEnd, List.append_nil] at split
  rw [marked, split]

/-- Places behind trivia may be reported. -/
theorem Cursor.Within.reported (within : c.Within text) (skipped : c.skip = c) :
    Reported text c.mark.position := by
  cases ahead : c.rest with
  | nil => exact .inr (congrArg Mark.position (within.mark_of_atEnd ahead))
  | cons d rest =>
      exact .inl ⟨c, d, rest, within, ahead, Cursor.not_isBlank_of_skip skipped ahead, rfl⟩

end

namespace Nesting

/-- Counting stops in front of an opening bracket. -/
theorem exists_bracket {region : Region} {depth : Nat} {mark found : Mark} {s : List Char}
    (stopped : tooDeepFrom? region depth mark s = some found) :
    ∃ w d rest, s = w ++ d :: rest ∧ found = mark.advance w ∧ (d = '(' ∨ d = '\x7b') := by
  induction s generalizing region depth mark with
  | nil => cases stopped
  | cons c s ih =>
      have further {region : Region} {depth : Nat}
          (stopped : tooDeepFrom? region depth (mark.step c) s = some found) :
          ∃ w d rest, c :: s = w ++ d :: rest ∧ found = mark.advance w ∧
            (d = '(' ∨ d = '\x7b') := by
        obtain ⟨w, d, rest, rfl, rfl, opening⟩ := ih stopped
        exact ⟨c :: w, d, rest, rfl, rfl, opening⟩
      unfold tooDeepFrom? at stopped
      cases region with
      | quoted q => exact further stopped
      | comment => exact further stopped
      | code =>
          dsimp only at stopped
          split at stopped
          · exact further stopped
          · split at stopped
            · exact further stopped
            · split at stopped
              · next opening =>
                  split at stopped
                  · cases stopped
                    exact ⟨[], c, s, rfl, rfl, opening⟩
                  · exact further stopped
              · split at stopped <;> exact further stopped

theorem visible_of_tooDeep {text : List Char} {mark : Mark} (deep : tooDeep? text = some mark) :
    Visible text mark.position := by
  obtain ⟨front, d, rest, split, rfl, opening⟩ := exists_bracket deep
  refine ⟨⟨Mark.origin.advance front, d :: rest⟩, d, rest, ⟨front, split, rfl⟩, rfl, ?_, rfl⟩
  rcases opening with rfl | rfl <;> rfl

end Nesting

namespace Peg

/-- Behind trivia, rules are tried behind trivia only; repetitions skip them by themselves. -/
theorem Runs.skipped {p : Peg} {c : Cursor} {out : Option Cursor} {log : List (Rule × Cursor)}
    (run : Runs p c out log) (start : (∀ item, p ≠ .more item) → c.skip = c) :
    ∀ a ∈ log, a.2.skip = a.2 := by
  have behind (c : Cursor) {p : Peg} : (∀ item, p ≠ .more item) → c.skip.skip = c.skip :=
    fun _ => c.skip_skip
  have again {c : Cursor} {p : Peg} : (∀ item, p.more ≠ .more item) → c.skip = c :=
    fun other => absurd rfl (other p)
  induction run with
  | empty | ending | noEnding | token | noToken => exact List.forall_mem_nil _
  | seqFails _ ih | first _ ih | manyNone _ ih | rule _ ih =>
      exact ih fun _ => start fun _ => nofun
  | seq _ _ ih ih' =>
      have start := start fun _ => nofun
      exact List.forall_mem_append.2 ⟨ih fun _ => start, ih' (behind _)⟩
  | second _ _ ih ih' =>
      have start := start fun _ => nofun
      exact List.forall_mem_append.2 ⟨ih fun _ => start, ih' fun _ => start⟩
  | many _ _ ih ih' =>
      have start := start fun _ => nofun
      exact List.forall_mem_append.2 ⟨ih fun _ => start, ih' again⟩
  | moreNone _ ih => exact ih (behind _)
  | more _ _ ih ih' => exact List.forall_mem_append.2 ⟨ih (behind _), ih' again⟩
  | ruleFails _ ih =>
      have start := start fun _ => nofun
      exact List.forall_mem_append.2 ⟨ih fun _ => start, List.forall_mem_singleton.2 start⟩

/-- Behind items a repetition does not fail. -/
theorem not_more_fails {p : Peg} {c : Cursor} {log : List (Rule × Cursor)} :
    ¬ Runs (.more p) c none log := by
  intro run
  generalize whole : p.more = q, failed : (none : Option Cursor) = out at run
  induction run with
  | more _ _ _ ih => exact ih whole failed
  | moreNone => cases failed
  | _ => cases whole

theorem not_many_fails {p : Peg} {c : Cursor} {log : List (Rule × Cursor)} :
    ¬ Runs (.many p) c none log := by
  rintro (_ | _)
  next _ others => exact not_more_fails others

/-- A script that fails has a rule that failed behind the trivia at its beginning. -/
theorem Runs.program_fails {c : Cursor} {log : List (Rule × Cursor)}
    (run : Runs (.rule .program) c none log) :
    ∃ inner, log = inner ++ [(.program, c)] ∧ inner ≠ [] ∧ ∀ a ∈ inner, a.2.skip = a.2 := by
  cases run with
  | @ruleFails _ _ inner failed =>
      have failed := Runs.of_skip failed
      refine ⟨inner, rfl, ?_, failed.skipped fun _ => c.skip_skip⟩
      cases failed with
      | seqFails lines => exact absurd lines not_many_fails
      | seq _ ending => exact List.append_ne_nil_of_right_ne_nil _ ending.log_ne_nil

end Peg

/-- The furthest of the rules that failed was tried behind trivia. -/
theorem Peg.Runs.furthest_skipped {text : String} {log : List (Rule × Cursor)} {f : Frontier}
    (run : Runs (.rule .program) (.ofText text) none log)
    (records : Frontier.Records text.toList log f) :
    ∃ c : Cursor, c.Within text.toList ∧ c.skip = c ∧ c.mark = f.mark := by
  obtain ⟨c, within, marked, some, tried⟩ := records.exists_place run.log_ne_nil
  obtain ⟨r, expected⟩ := List.exists_mem_of_ne_nil _ some
  obtain ⟨inner, rfl, tries, skipped⟩ := run.program_fails
  refine ⟨c, within, ?_, marked⟩
  rcases List.mem_append.1 (tried r expected) with mem | mem
  · exact skipped _ mem
  · -- the script itself is tried at the beginning; then nothing failed further on
    obtain ⟨⟨r', d⟩, mem'⟩ := List.exists_mem_of_ne_nil _ tries
    have place : c = .ofText text := congrArg Prod.snd (List.mem_singleton.1 mem)
    have near := records.furthest _ (List.mem_append_left _ mem')
    rw [← marked, place] at near
    have same : d = c := by
      refine (records.within _ (List.mem_append_left _ mem')).eq_of_offset within ?_
      rw [place]
      exact Nat.eq_zero_of_le_zero near
    exact same ▸ skipped _ mem'

/-! ## Errors of reading -/

/-- A script that is not read is refused at a place that may be reported, with its line. -/
theorem Source.reported_of_refused {source : Source} {e : ParseError}
    (refused : source.parse = .error e) :
    Reported source.text.toList e.span.start ∧
      e.sourceLine = (source.line? e.span.start.line).getD "" := by
  cases deep : Nesting.tooDeep? source.text.toList with
  | some mark =>
      cases (parse_of_tooDeep deep).symm.trans refused
      exact ⟨.inl (Nesting.visible_of_tooDeep deep), rfl⟩
  | none =>
      rcases recognize_spec source.text with
        ⟨⟨program, recognized⟩, _⟩ | ⟨frontier, log, failed, run, records⟩
      · have parsed := parse_of_recognized deep recognized
        cases found : tooTall? program.postorder with
        | none =>
            rw [found] at parsed
            cases parsed.symm.trans refused
        | some node =>
            rw [found] at parsed
            cases parsed.symm.trans refused
            obtain ⟨_, before, behind, split, _⟩ := tooTall?_eq_some_iff.1 found
            have mem : node ∈ program.postorder := by simp [split]
            exact ⟨.inl (located_of_recognize recognized node mem).1, rfl⟩
      · cases (parse_of_unrecognized deep failed).2.symm.trans refused
        obtain ⟨c, within, skipped, marked⟩ := run.furthest_skipped records
        exact ⟨marked ▸ within.reported skipped, rfl⟩

/-- At the end of a text no expression is found. -/
theorem Peg.Runs.expression_fails {text : List Char} {c : Cursor} (within : c.Within text)
    (atEnd : c.rest = []) :
    ∃ log, Runs (.rule .expression) c none (log ++ [(.expression, c)]) := by
  have near : c.rest.length < 1 := by
    rw [atEnd]
    exact Nat.one_pos
  obtain ⟨log, run, _⟩ := Grammar.realizes_expression 1 within near
  cases found : (Grammar.expression 1 c).result.map Prod.snd with
  | some c' =>
      have shorter := run.length_lt rfl c' found
      rw [atEnd] at shorter
      exact absurd shorter (Nat.not_lt_zero _)
  | none =>
      rw [found] at run
      cases run with
      | ruleFails failed => exact ⟨_, .ruleFails failed⟩

/-- A text in which a rule fails at the end is refused there. -/
theorem parse_of_failed_at_end {source : Source}
    (shallow : Nesting.tooDeep? source.text.toList = none) {log : List (Rule × Cursor)}
    (run : Peg.Runs (.rule .program) (.ofText source.text) none log) {r : Rule} {c : Cursor}
    (mem : (r, c) ∈ log) (atEnd : c.rest = []) :
    ∃ message, source.parse = .error (.report source message
      (.point (Mark.origin.advance source.text.toList).position)) := by
  rcases recognize_spec source.text with
    ⟨_, _, _, matched⟩ | ⟨frontier, log', failed, run', records⟩
  · cases (run.unique matched).1
  · obtain ⟨_, rfl⟩ := run.unique run'
    obtain ⟨d, within, marked⟩ := records.placed
    have last := (records.within _ mem).mark_of_atEnd atEnd
    have further := records.furthest _ mem
    -- no place is behind the end
    have same : c = d := by
      obtain ⟨front, split, offset, _⟩ := within.split
      refine (records.within _ mem).eq_of_offset within (Nat.le_antisymm (marked ▸ further) ?_)
      rw [last, Mark.offset_advance, offset, split, utf8Length_append, ← Nat.add_assoc]
      exact Nat.le_add_right_of_le (Nat.le_add_left _ _)
    refine ⟨(Fault.expected frontier).message, ?_⟩
    rw [← last, same, marked]
    exact (parse_of_unrecognized shallow failed).2

/-! ## Statements -/

mutual

def Stmt.statements : Stmt → List Stmt
  | .assign target value span => [.assign target value span]
  | .call callee args span => [.call callee args span]
  | .loop kind condition body otherwise span =>
      .loop kind condition body otherwise span :: (body.statements ++ otherwise.statements)
  | .branch b => .branch b :: b.statements

def Block.statements : Block → List Stmt
  | .mk stmts _ => allStatements stmts

/-- The statements inside of a branch; a further branch is none of them. -/
def Branch.statements : Branch → List Stmt
  | .mk _ body otherwise _ => body.statements ++ otherwise.statements

def Otherwise.statements : Otherwise → List Stmt
  | .nothing => []
  | .block body => body.statements
  | .branch b => b.statements

def allStatements : List Stmt → List Stmt
  | [] => []
  | s :: ss => s.statements ++ allStatements ss

end

section

variable {text : List Char}

/-- Taking tokens does not leave a text. -/
theorem parallel_within (text : List Char) :
    Parallel (fun c _ => c.Within text) fun _ _ => True where
  skip := Cursor.Within.skip
  takes within takes _ := within.behind takes.2
  span _ _ := trivial
  merge _ _ := trivial

theorem Expr.Takes.within {e : Expr} {c c' : Cursor} (takes : e.Takes c c')
    (within : c.Within text) : c'.Within text :=
  (parallel_expr (parallel_within text) e takes takes rfl within).1.1

theorem Stmt.Takes.within {s : Stmt} {c c' : Cursor} (takes : s.Takes c c')
    (within : c.Within text) : c'.Within text :=
  (parallel_stmt (parallel_within text) s takes takes rfl within).1

theorem Block.Takes.within {b : Block} {c c' : Cursor} (takes : b.Takes c c')
    (within : c.Within text) : c'.Within text :=
  (parallel_block (parallel_within text) b takes takes rfl within).1

/-- A branch behind trivia begins with a visible character. -/
theorem Branch.Takes.starts {b : Branch} {c c' : Cursor} (takes : b.Takes c c')
    (within : c.Within text) (skipped : c.skip = c) : Visible text b.span.start := by
  cases b with
  | mk condition body otherwise span =>
      obtain ⟨c₁, c₂, c₃, keyword, guard, inside, more, rfl⟩ := takes
      exact within.visible skipped keyword

mutual

/-- A statement behind trivia and those inside of it begin with visible characters. -/
theorem Stmt.Takes.visible : {s : Stmt} → {c c' : Cursor} → s.Takes c c' → c.Within text →
    c.skip = c → ∀ t ∈ s.statements, Visible text t.span.start
  | .assign target value span, c, c', takes, within, skipped => by
      obtain ⟨c₁, c₂, c₃, name, sign, operand, closed, rfl⟩ := takes
      exact List.forall_mem_singleton.2 (within.visible skipped name.1)
  | .call callee args span, c, c', takes, within, skipped => by
      obtain ⟨c₁, ⟨c₂, c₃, c₄, name, opened, given, closed, rfl⟩, ended⟩ := takes
      exact List.forall_mem_singleton.2 (within.visible skipped name.1)
  | .loop kind condition body otherwise span, c, c', takes, within, skipped => by
      obtain ⟨c₁, c₂, c₃, keyword, guard, inside, more, rfl⟩ := takes
      have within₂ := guard.within (within.behind keyword.2).skip
      have within₃ := inside.within within₂.skip
      exact List.forall_mem_cons.2 ⟨within.visible skipped keyword,
        List.forall_mem_append.2 ⟨inside.visible within₂.skip, more.visible within₃.skip⟩⟩
  | .branch b, c, c', takes, within, skipped =>
      have branch : b.Takes c c' := takes
      List.forall_mem_cons.2 ⟨branch.starts within skipped, branch.visible within⟩

theorem Block.Takes.visible : {b : Block} → {c c' : Cursor} → b.Takes c c' → c.Within text →
    ∀ t ∈ b.statements, Visible text t.span.start
  | .mk stmts span, c, c', takes, within => by
      obtain ⟨c₁, c₂, opened, inside, closed, rfl⟩ := takes
      exact inside.visible (within.behind opened.2)

theorem Branch.Takes.visible : {b : Branch} → {c c' : Cursor} → b.Takes c c' → c.Within text →
    ∀ t ∈ b.statements, Visible text t.span.start
  | .mk condition body otherwise span, c, c', takes, within => by
      obtain ⟨c₁, c₂, c₃, keyword, guard, inside, more, rfl⟩ := takes
      have within₂ := guard.within (within.behind keyword.2).skip
      have within₃ := inside.within within₂.skip
      exact List.forall_mem_append.2 ⟨inside.visible within₂.skip, more.visible within₃.skip⟩

theorem Otherwise.Takes.visible : {o : Otherwise} → {c c' : Cursor} → o.Takes c c' →
    c.Within text → ∀ t ∈ o.statements, Visible text t.span.start
  | .nothing, c, c', takes, within => List.forall_mem_nil _
  | .block body, c, c', takes, within => by
      obtain ⟨c₁, keyword, inside⟩ := takes
      exact inside.visible (within.behind keyword.2).skip
  | .branch b, c, c', takes, within => by
      obtain ⟨c₁, keyword, inside⟩ := takes
      exact inside.visible (within.behind keyword.2).skip

theorem TakeStmts.visible : {ss : List Stmt} → {c c' : Cursor} → TakeStmts ss c c' →
    c.Within text → ∀ t ∈ allStatements ss, Visible text t.span.start
  | [], c, c', takes, within => List.forall_mem_nil _
  | s :: ss, c, c', takes, within => by
      obtain ⟨c₁, first, others⟩ := takes
      have within₁ := first.within within.skip
      exact List.forall_mem_append.2
        ⟨first.visible within.skip c.skip_skip, others.visible within₁⟩

end

end

/-- The statements of a recognized program begin with visible characters. -/
theorem visible_of_recognize {text : String} {program : Program}
    (recognized : recognize text = .ok program) :
    ∀ t ∈ allStatements program.stmts, Visible text.toList t.span.start := by
  obtain ⟨_, takes, _⟩ := takes_of_recognize recognized
  exact takes.visible (.ofText text)

end TinyScript
