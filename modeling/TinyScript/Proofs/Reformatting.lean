import TinyScript.Proofs.Adequacy
import TinyScript.Proofs.Erasure

/-!
# Places and grouping carry no meaning

The rules of the language read neither the places of a tree nor its
parentheses.  So two programs that differ in nothing else do the same, although
a parenthesis takes a level and a step of its own: without a step limit and
with room for both trees, they end with the same result and in the same store,
or neither of them ends.
-/

namespace TinyScript

open Eval

variable {σ : Type} {host : Host σ} {limits : Limits}

mutual

/-- An expression with every parenthesis replaced by what it encloses. -/
def Expr.ungrouped : Expr → Expr
  | .const literal span => .const literal span
  | .ident name span => .ident name span
  | .call callee args span => .call callee (ungroupedExprs args) span
  | .additive left op right span => .additive left.ungrouped op right.ungrouped span
  | .comparison left op right span => .comparison left.ungrouped op right.ungrouped span
  | .paren inner _ => inner.ungrouped

def ungroupedExprs : List Expr → List Expr
  | [] => []
  | e :: es => e.ungrouped :: ungroupedExprs es

end

mutual

def Stmt.ungrouped : Stmt → Stmt
  | .assign target value span => .assign target value.ungrouped span
  | .call callee args span => .call callee (ungroupedExprs args) span
  | .loop kind condition body otherwise span =>
      .loop kind condition.ungrouped body.ungrouped otherwise.ungrouped span
  | .branch b => .branch b.ungrouped

def Block.ungrouped : Block → Block
  | .mk stmts span => .mk (ungroupedStmts stmts) span

def Branch.ungrouped : Branch → Branch
  | .mk condition body otherwise span =>
      .mk condition.ungrouped body.ungrouped otherwise.ungrouped span

def Otherwise.ungrouped : Otherwise → Otherwise
  | .nothing => .nothing
  | .block body => .block body.ungrouped
  | .branch b => .branch b.ungrouped

def ungroupedStmts : List Stmt → List Stmt
  | [] => []
  | s :: ss => s.ungrouped :: ungroupedStmts ss

end

def Program.ungrouped (program : Program) : Program :=
  ⟨ungroupedStmts program.stmts, program.span⟩

/-- A call reads its arguments only through what they evaluate to. -/
theorem calls_congr {args args' : List Expr}
    (same : EvaluatesAll host args = EvaluatesAll host args') (name : String) :
    Calls host name args = Calls host name args' :=
  rules_ext fun x result y => by rw [calls_iff, calls_iff, same]

mutual

/-- An expression does the same without its places and its parentheses. -/
theorem evaluates_ungrouped : (e : Expr) →
    Evaluates host e.ungrouped.erase = Evaluates host e
  | .const literal span => rules_ext fun x result y => by
      rw [Expr.ungrouped, Expr.erase, evaluates_const_iff, evaluates_const_iff]
  | .ident name span => rules_ext fun x result y => by
      rw [Expr.ungrouped, Expr.erase, evaluates_ident_iff, evaluates_ident_iff]
  | .call callee args span => rules_ext fun x result y => by
      rw [Expr.ungrouped, Expr.erase, evaluates_call_iff, evaluates_call_iff,
        calls_congr (evaluatesAll_ungrouped args)]
      rfl
  | .additive left op right span => rules_ext fun x result y => by
      rw [Expr.ungrouped, Expr.erase, evaluates_additive_iff, evaluates_additive_iff,
        evaluates_ungrouped left, evaluates_ungrouped right]
  | .comparison left op right span => rules_ext fun x result y => by
      rw [Expr.ungrouped, Expr.erase, evaluates_comparison_iff, evaluates_comparison_iff,
        evaluates_ungrouped left, evaluates_ungrouped right]
  | .paren inner span => rules_ext fun x result y => by
      rw [Expr.ungrouped, evaluates_paren_iff, evaluates_ungrouped inner]

theorem evaluatesAll_ungrouped : (es : List Expr) →
    EvaluatesAll host (eraseExprs (ungroupedExprs es)) = EvaluatesAll host es
  | [] => rfl
  | e :: es => rules_ext fun x result y => by
      rw [ungroupedExprs, eraseExprs, evaluatesAll_cons_iff, evaluatesAll_cons_iff,
        evaluates_ungrouped e, evaluatesAll_ungrouped es]

end

theorem Checks.of_evaluates {e e' : Expr} (same : Evaluates host e = Evaluates host e')
    {keyword : String} {x y : Store σ} {result : Except EvalError Bool}
    (checked : Checks host keyword e x result y) : Checks host keyword e' x result y := by
  cases checked with
  | boolean given => exact .boolean (same ▸ given)
  | other given noBoolean => exact .other (same ▸ given) noBoolean
  | failed given => exact .failed (same ▸ given)

theorem checks_ungrouped (keyword : String) (condition : Expr) :
    Checks host keyword condition.ungrouped.erase = Checks host keyword condition :=
  rules_ext fun _ _ _ => ⟨Checks.of_evaluates (evaluates_ungrouped condition),
    Checks.of_evaluates (evaluates_ungrouped condition).symm⟩

theorem Decides.of_checks {kind : LoopKind} {e e' : Expr}
    (same : Checks host kind.keyword e = Checks host kind.keyword e') {x y : Store σ}
    {result : Except EvalError Bool} (decided : Decides host kind e x result y) :
    Decides host kind e' x result y := by
  cases decided with
  | again checked => exact .again (same ▸ checked)
  | last checked => exact .last (same ▸ checked)
  | failed checked => exact .failed (same ▸ checked)

theorem decides_ungrouped (kind : LoopKind) (condition : Expr) :
    Decides host kind condition.ungrouped.erase = Decides host kind condition :=
  rules_ext fun _ _ _ => ⟨Decides.of_checks (checks_ungrouped _ condition),
    Decides.of_checks (checks_ungrouped _ condition).symm⟩

mutual

theorem executes_ungrouped_stmt : (s : Stmt) →
    Executes host (.stmt s.ungrouped.erase) = Executes host (.stmt s)
  | .assign target value span => rules_ext fun x result y => by
      rw [Stmt.ungrouped, Stmt.erase, executes_assign_iff, executes_assign_iff,
        evaluates_ungrouped value]
      rfl
  | .call callee args span => rules_ext fun x result y => by
      rw [Stmt.ungrouped, Stmt.erase, executes_call_iff, executes_call_iff,
        calls_congr (evaluatesAll_ungrouped args)]
      rfl
  | .loop kind condition body otherwise span => rules_ext fun x result y => by
      -- the rounds of both loops repeat one relation, however often
      have rounds : Executes host (.rounds kind condition.ungrouped.erase body.ungrouped.erase) =
          Executes host (.rounds kind condition body) := rules_ext fun x result y => by
        rw [executes_rounds_iff, executes_rounds_iff, executes_ungrouped_block body,
          decides_ungrouped]
      rw [Stmt.ungrouped, Stmt.erase, executes_loop_iff, executes_loop_iff, decides_ungrouped,
        rounds, executes_ungrouped_otherwise otherwise]
  | .branch b => rules_ext fun x result y => by
      rw [Stmt.ungrouped, Stmt.erase, executes_choice_iff, executes_choice_iff,
        executes_ungrouped_branch b]

theorem executes_ungrouped_block : (b : Block) →
    Executes host (.block b.ungrouped.erase) = Executes host (.block b)
  | .mk stmts span => rules_ext fun x result y => by
      rw [Block.ungrouped, Block.erase, executes_block_iff, executes_block_iff,
        executes_ungrouped_stmts stmts]

theorem executes_ungrouped_branch : (b : Branch) →
    Executes host (.branch b.ungrouped.erase) = Executes host (.branch b)
  | .mk condition body otherwise span => rules_ext fun x result y => by
      rw [Branch.ungrouped, Branch.erase, executes_branch_iff, executes_branch_iff,
        checks_ungrouped, executes_ungrouped_block body, executes_ungrouped_otherwise otherwise]

theorem executes_ungrouped_otherwise : (o : Otherwise) →
    Executes host (.otherwise o.ungrouped.erase) = Executes host (.otherwise o)
  | .nothing => rfl
  | .block body => rules_ext fun x result y => by
      rw [Otherwise.ungrouped, Otherwise.erase, executes_otherwiseBlock_iff,
        executes_otherwiseBlock_iff, executes_ungrouped_block body]
  | .branch b => rules_ext fun x result y => by
      rw [Otherwise.ungrouped, Otherwise.erase, executes_otherwiseBranch_iff,
        executes_otherwiseBranch_iff, executes_ungrouped_branch b]

theorem executes_ungrouped_stmts : (ss : List Stmt) →
    Executes host (.stmts (eraseStmts (ungroupedStmts ss))) = Executes host (.stmts ss)
  | [] => rfl
  | s :: ss => rules_ext fun x result y => by
      rw [ungroupedStmts, eraseStmts, executes_cons_iff, executes_cons_iff,
        executes_ungrouped_stmt s, executes_ungrouped_stmts ss]

end

/-- Programs whose statements follow the same rules end alike, from the same store. -/
theorem Ends.of_same_rules (unlimited : limits.maxSteps = none) {p q : Program}
    (same : Executes host (.stmts p.stmts) = Executes host (.stmts q.stmts)) {s s' t : State σ}
    (roomP : s.depth + mostLevels p.stmts ≤ limits.maxDepth)
    (roomQ : t.depth + mostLevels q.stmts ≤ limits.maxDepth) (store : s.store = t.store)
    {result : Except EvalError Unit} (ended : Ends host limits p s result s') :
    ∃ t', Ends host limits q t result t' ∧ s'.store = t'.store := by
  obtain ⟨rounds, ended⟩ := ended
  rw [evalProgram_eq] at ended
  obtain ⟨given, s₁, ran⟩ := of_conclude ended
  obtain ⟨s₂, concluded, store₁, _⟩ := conclude_outcome given s₁
  rw [ran] at ended
  obtain ⟨rfl, rfl⟩ := outcome_inj (concluded.symm.trans ended)
  have start : (begin p s).depth + mostLevels p.stmts ≤ limits.maxDepth := roomP
  have derived := ((implements_stmts unlimited p.stmts).sound start ran).2
  rw [same] at derived
  obtain ⟨least, ends⟩ := (implements_stmts unlimited q.stmts).complete derived
  obtain ⟨t₁, ran', store₂⟩ := ends least (Nat.le_refl least) (begin q t) store.symm roomQ
  obtain ⟨t', concluded', store₃, _⟩ := conclude_outcome given t₁
  have sink : t₁.sink = s₁.sink := congrArg Store.sink store₂
  refine ⟨t', ⟨least, ?_⟩, ?_⟩
  · rw [evalProgram_eq, ran', concluded', sink]
  · rw [store₁, store₃, store₂]

/--
Places and grouping carry no meaning.  Two programs that are equal without
their places, and with every parenthesis replaced by what it encloses, end
alike: run from the same names, sink and state of the host, without a step
limit and with room for the levels of both, either both end or neither does;
and if they end, then with the same result, and with the same names, sink and
state of the host.
-/
theorem places_and_grouping_meaningless (unlimited : limits.maxSteps = none) {p q : Program}
    (alike : p.ungrouped.erase = q.ungrouped.erase) {s t : State σ} (store : s.store = t.store)
    (roomP : s.depth + mostLevels p.stmts ≤ limits.maxDepth)
    (roomQ : t.depth + mostLevels q.stmts ≤ limits.maxDepth) :
    ((∃ result s', Ends host limits p s result s') ↔
      ∃ result t', Ends host limits q t result t') ∧
    ∀ result s' result' t', Ends host limits p s result s' →
      Ends host limits q t result' t' → result = result' ∧ s'.store = t'.store := by
  have stmts : eraseStmts (ungroupedStmts p.stmts) = eraseStmts (ungroupedStmts q.stmts) :=
    congrArg Program.stmts alike
  have same : Executes host (.stmts p.stmts) = Executes host (.stmts q.stmts) := by
    rw [← executes_ungrouped_stmts, stmts, executes_ungrouped_stmts]
  refine ends_alike (fun ended => ended.of_same_rules unlimited same roomP roomQ store) ?_
  intro result t' ended
  obtain ⟨s', ended', _⟩ := ended.of_same_rules unlimited same.symm roomQ roomP store.symm
  exact ⟨s', ended'⟩

/-- The loop `while (more()) { write(((count()))); }`, at another place. -/
def groupedLoop : Program :=
  let span : Span := .point ⟨7, 1⟩
  ⟨[.loop .whileTrue (.paren (.call ⟨"more", span⟩ [] span) span)
      (.mk [.call ⟨"write", span⟩
        [.paren (.paren (.call ⟨"count", span⟩ [] span) span) span] span] span)
      .nothing span], span⟩

/-- The grouped loop visits more nodes and leaves the same behind. -/
theorem places_and_grouping_meaningless_groupedLoop :
    guardedLoop.ungrouped.erase = groupedLoop.ungrouped.erase ∧
    ∃ s t, Ends Catalogue.host {} guardedLoop guardedState (.ok ()) s ∧
      Ends Catalogue.host {} groupedLoop guardedState (.ok ()) t ∧ s.steps < t.steps ∧
      s.store = t.store := by
  have alike : guardedLoop.ungrouped.erase = groupedLoop.ungrouped.erase := rfl
  have ended : Ends Catalogue.host {} guardedLoop guardedState (.ok ()) _ :=
    @ends_of_result _ _ _ 4 _ _ _ (by decide +kernel)
  have ended' : Ends Catalogue.host {} groupedLoop guardedState (.ok ()) _ :=
    @ends_of_result _ _ _ 4 _ _ _ (by decide +kernel)
  have room : guardedState.depth + mostLevels guardedLoop.stmts ≤ ({} : Limits).maxDepth := by
    decide
  have room' : guardedState.depth + mostLevels groupedLoop.stmts ≤ ({} : Limits).maxDepth := by
    decide
  obtain ⟨_, same⟩ := places_and_grouping_meaningless rfl alike rfl room room'
  exact ⟨alike, _, _, ended, ended', by decide +kernel, (same _ _ _ _ ended ended').2⟩

end TinyScript
