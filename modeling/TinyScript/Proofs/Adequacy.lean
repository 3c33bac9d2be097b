import TinyScript.Proofs.AdequateExpressions
import TinyScript.Proofs.Budgets
import TinyScript.Proofs.Levels

/-!
# Evaluation follows the rules

Without a step limit, and with room for all levels of a program, a run ends
with a result and in a store exactly if the rules of the language derive this.
-/

namespace TinyScript

open Eval

variable {σ : Type} {host : Host σ} {limits : Limits}

theorem discard_eq {α : Type} (p : Eval σ α) : discard p = p >>= fun _ => pure () := rfl

theorem discard_nested (span : Span) {α : Type} (p : Eval σ α) :
    discard (Eval.nested limits span p) = Eval.nested limits span (discard p) := by
  funext s
  rw [discard_eq, discard_eq, bind_eq, nested_eq, nested_eq]
  by_cases full : limits.maxDepth ≤ s.depth
  · rw [if_pos full, if_pos full]
  · rw [if_neg full, if_neg full, ← bind_assoc, bind_eq (tick limits >>= fun _ => p)]
    cases (tick limits >>= fun _ => p) s.enter <;> rfl

theorem discard_assign (setting : Setting σ) (target : Ident) (value : Expr) (span : Span) :
    discard (evalStmt setting (.assign target value span)) = Eval.nested setting.limits span (do
      let v ← evalExpr setting value
      emit (.assigned target.name v)
      Eval.assign target.name v) := by
  rw [evalStmt, discard_nested, discard_eq]
  simp only [bind_assoc, pure_bind]
  rfl

theorem discard_call (setting : Setting σ) (callee : Ident) (args : List Expr) (span : Span) :
    discard (evalStmt setting (.call callee args span)) = Eval.nested setting.limits span (do
      discard (evalCall setting callee.name args)) := by
  rw [evalStmt, discard_nested]
  rfl

def evalCheck (setting : Setting σ) (kind : LoopKind) (condition : Expr) : Eval σ Bool := do
  return kind.continues (← evalCondition setting kind.keyword condition)

theorem discard_loop (setting : Setting σ) (kind : LoopKind) (condition : Expr) (body : Block)
    (otherwise : Otherwise) (span : Span) :
    discard (evalStmt setting (.loop kind condition body otherwise span)) =
      Eval.nested setting.limits span (do
        if ← evalCheck setting kind condition then
          let iterations ← repeatRounds (do
            evalBlock setting body
            evalCheck setting kind condition) setting.rounds 0
          emit (.loopFinished kind iterations)
        else evalOtherwise setting otherwise) := by
  rw [evalStmt, discard_nested, discard_eq]
  simp only [evalCheck, bind_assoc, pure_bind]
  refine congrArg _ (bind_congr fun holds => ?_)
  cases kind.continues holds <;> simp

theorem discard_branch (setting : Setting σ) (b : Branch) :
    discard (evalStmt setting (.branch b)) =
      Eval.nested setting.limits b.span (evalBranch setting b) := by
  rw [evalStmt, discard_nested, discard_eq]
  simp only [bind_assoc, pure_bind]
  exact congrArg _ (bind_pure _)

/-- The check of a loop: one truth value of its condition lets it go on, the other ends it. -/
inductive Decides (host : Host σ) (kind : LoopKind) (condition : Expr) :
    Store σ → Except EvalError Bool → Store σ → Prop where
  | again {x y : Store σ} (checked : Checks host kind.keyword condition x (.ok kind.goesOn) y) :
      Decides host kind condition x (.ok true) y
  | last {x y : Store σ} (checked : Checks host kind.keyword condition x (.ok (!kind.goesOn)) y) :
      Decides host kind condition x (.ok false) y
  | failed {x y : Store σ} {e : EvalError}
      (checked : Checks host kind.keyword condition x (.error e) y) :
      Decides host kind condition x (.error e) y

theorem implements_check (host : Host σ) (unlimited : limits.maxSteps = none) (kind : LoopKind)
    (condition : Expr) :
    Implements limits condition.height
      (fun rounds => evalCheck ⟨host, limits, rounds⟩ kind condition)
      (Decides host kind condition) := by
  refine ((implements_condition host unlimited kind.keyword condition).map kind.continues).congr ?_
  intro x result y
  constructor
  · rintro ⟨given, checked, rfl⟩
    cases given with
    | error e => exact .failed checked
    | ok b =>
        cases kind <;> cases b
        · exact .last checked
        · exact .again checked
        · exact .again checked
        · exact .last checked
  · intro rule
    cases rule with
    | again checked => exact ⟨_, checked, by cases kind <;> rfl⟩
    | last checked => exact ⟨_, checked, by cases kind <;> rfl⟩
    | failed checked => exact ⟨_, checked, rfl⟩

theorem executes_assign_iff {target : Ident} {value : Expr} {span : Span} {x y : Store σ}
    {result : Except EvalError Unit} :
    Executes host (.stmt (.assign target value span)) x result y ↔
      Then (Evaluates host value) (fun v x result y =>
        (.ok (), x.assign target.name v) = (result, y)) x result y := by
  constructor
  · intro rule
    cases rule with
    | assign given => exact .next given rfl
    | assignFailed given => exact .failed given
  · intro derived
    cases derived with
    | failed given => exact .assignFailed given
    | next given assigned =>
        cases assigned
        exact .assign given

theorem executes_call_iff {callee : Ident} {args : List Expr} {span : Span} {x y : Store σ}
    {result : Except EvalError Unit} :
    Executes host (.stmt (.call callee args span)) x result y ↔
      ∃ given, Calls host callee.name args x given y ∧ given.map (fun _ => ()) = result := by
  constructor
  · rintro ⟨⟩
    exact ⟨_, ‹_›, rfl⟩
  · rintro ⟨given, called, rfl⟩
    exact .call called

theorem executes_rounds_iff {kind : LoopKind} {condition : Expr} {body : Block} {x y : Store σ}
    {result : Except EvalError Unit} :
    Executes host (.rounds kind condition body) x result y ↔
      Repeats (Then (Executes host (.block body)) fun _ => Decides host kind condition)
        x result y := by
  constructor
  · intro rule
    generalize task : Task.rounds kind condition body = rounds at rule
    induction rule with
    | roundFailed ran =>
        cases task
        exact .failed (.failed ran)
    | roundRejected ran checked =>
        cases task
        exact .failed (.next ran (.failed checked))
    | roundLast ran checked =>
        cases task
        exact .last (.next ran (.last checked))
    | roundAgain ran checked _ _ ih =>
        cases task
        exact .again (.next ran (.again checked)) (ih rfl)
    | _ => cases task
  · intro derived
    induction derived with
    | failed ran =>
        cases ran with
        | failed ran => exact .roundFailed ran
        | next ran decided =>
            cases decided with
            | failed checked => exact .roundRejected ran checked
    | last ran =>
        cases ran with
        | next ran decided =>
            cases decided with
            | last checked => exact .roundLast ran checked
    | again ran _ ih =>
        cases ran with
        | next ran decided =>
            cases decided with
            | again checked => exact .roundAgain ran checked ih

theorem executes_loop_iff {kind : LoopKind} {condition : Expr} {body : Block}
    {otherwise : Otherwise} {span : Span} {x y : Store σ} {result : Except EvalError Unit} :
    Executes host (.stmt (.loop kind condition body otherwise span)) x result y ↔
      Then (Decides host kind condition) (fun again => if again then
        Executes host (.rounds kind condition body) else Executes host (.otherwise otherwise))
        x result y := by
  constructor
  · intro rule
    cases rule with
    | loopFailed checked => exact .failed (.failed checked)
    | loopOtherwise checked instead => exact .next (.last checked) instead
    | loopRounds checked repeated => exact .next (.again checked) repeated
  · intro derived
    cases derived with
    | failed decided =>
        cases decided with
        | failed checked => exact .loopFailed checked
    | next decided continued =>
        cases decided with
        | again checked => exact .loopRounds checked continued
        | last checked => exact .loopOtherwise checked continued

theorem executes_branch_iff {condition : Expr} {body : Block} {otherwise : Otherwise}
    {span : Span} {x y : Store σ} {result : Except EvalError Unit} :
    Executes host (.branch (.mk condition body otherwise span)) x result y ↔
      Then (Checks host "if" condition) (fun holds => if holds then
        Executes host (.block body) else Executes host (.otherwise otherwise)) x result y := by
  constructor
  · intro rule
    cases rule with
    | branchFailed checked => exact .failed checked
    | branchTrue checked ran => exact .next checked ran
    | branchFalse checked ran => exact .next checked ran
  · intro derived
    cases derived with
    | failed checked => exact .branchFailed checked
    | @next _ _ holds _ checked ran =>
        cases holds with
        | true => exact .branchTrue checked ran
        | false => exact .branchFalse checked ran

theorem executes_choice_iff {b : Branch} {x y : Store σ} {result : Except EvalError Unit} :
    Executes host (.stmt (.branch b)) x result y ↔ Executes host (.branch b) x result y := by
  constructor
  · rintro ⟨⟩
    assumption
  · exact .choice

theorem executes_block_iff {stmts : List Stmt} {span : Span} {x y : Store σ}
    {result : Except EvalError Unit} :
    Executes host (.block (.mk stmts span)) x result y ↔
      Executes host (.stmts stmts) x result y := by
  constructor
  · rintro ⟨⟩
    assumption
  · exact .block

theorem executes_otherwiseBlock_iff {body : Block} {x y : Store σ}
    {result : Except EvalError Unit} :
    Executes host (.otherwise (.block body)) x result y ↔
      Executes host (.block body) x result y := by
  constructor
  · rintro ⟨⟩
    assumption
  · exact .otherwiseBlock

theorem executes_otherwiseBranch_iff {b : Branch} {x y : Store σ}
    {result : Except EvalError Unit} :
    Executes host (.otherwise (.branch b)) x result y ↔ Executes host (.branch b) x result y := by
  constructor
  · rintro ⟨⟩
    assumption
  · exact .otherwiseBranch

theorem executes_cons_iff {s : Stmt} {ss : List Stmt} {x y : Store σ}
    {result : Except EvalError Unit} :
    Executes host (.stmts (s :: ss)) x result y ↔
      Then (Executes host (.stmt s)) (fun _ => Executes host (.stmts ss)) x result y := by
  constructor
  · intro rule
    cases rule with
    | cons first others => exact .next first others
    | consFailed first => exact .failed first
  · intro derived
    cases derived with
    | failed first => exact .consFailed first
    | next first others => exact .cons first others

mutual

theorem implements_stmt (unlimited : limits.maxSteps = none) : (s : Stmt) →
    Implements limits s.levels (fun rounds => discard (evalStmt ⟨host, limits, rounds⟩ s))
      (Executes host (.stmt s))
  | .assign target value span => by
      simp only [discard_assign]
      refine (((implements_expr unlimited value).bind fun v => .logged _ ?_).nested unlimited
        span).congr fun _ _ _ => executes_assign_iff.symm
      exact .step (fun x => (.ok (), x.assign target.name v)) fun _ s => ⟨_, rfl, rfl, rfl⟩
  | .call callee args span => by
      simp only [discard_call]
      exact (((implements_call unlimited callee.name args).map fun _ => ()).nested unlimited
        span).congr fun _ _ _ => executes_call_iff.symm
  | .loop kind condition body otherwise span => by
      simp only [discard_loop]
      have check := (implements_check host unlimited kind condition).mono
        (Nat.le_max_left _ (max body.levels otherwise.levels))
      have inside := (implements_block unlimited body).mono (Nat.le_trans
        (Nat.le_max_left _ otherwise.levels) (Nat.le_max_right condition.height _))
      have other := (implements_otherwise unlimited otherwise).mono (Nat.le_trans
        (Nat.le_max_right body.levels _) (Nat.le_max_right condition.height _))
      refine ((check.bind fun again => ?_).nested unlimited span).congr fun _ _ _ =>
        executes_loop_iff.symm
      cases again with
      | true =>
          exact (implements_repeatRounds (inside.bind fun _ => check) _).congr fun _ _ _ =>
            executes_rounds_iff.symm
      | false => exact other
  | .branch b => by
      simp only [discard_branch]
      exact ((implements_branch unlimited b).nested unlimited b.span).congr
        fun _ _ _ => executes_choice_iff.symm

theorem implements_block (unlimited : limits.maxSteps = none) : (b : Block) →
    Implements limits b.levels (fun rounds => evalBlock ⟨host, limits, rounds⟩ b)
      (Executes host (.block b))
  | .mk stmts span => by
      simp only [evalBlock]
      exact (implements_stmts unlimited stmts).congr fun _ _ _ => executes_block_iff.symm

theorem implements_branch (unlimited : limits.maxSteps = none) : (b : Branch) →
    Implements limits b.levels (fun rounds => evalBranch ⟨host, limits, rounds⟩ b)
      (Executes host (.branch b))
  | .mk condition body otherwise span => by
      simp only [evalBranch]
      have check := (implements_condition host unlimited "if" condition).mono
        (Nat.le_max_left _ (max body.levels otherwise.levels))
      have inside := (implements_block unlimited body).mono (Nat.le_trans
        (Nat.le_max_left _ otherwise.levels) (Nat.le_max_right condition.height _))
      have other := (implements_otherwise unlimited otherwise).mono (Nat.le_trans
        (Nat.le_max_right body.levels _) (Nat.le_max_right condition.height _))
      refine (check.bind fun holds => ?_).congr fun _ _ _ => executes_branch_iff.symm
      cases holds with
      | true => exact inside
      | false => exact other

theorem implements_otherwise (unlimited : limits.maxSteps = none) : (o : Otherwise) →
    Implements limits o.levels (fun rounds => evalOtherwise ⟨host, limits, rounds⟩ o)
      (Executes host (.otherwise o))
  | .nothing => by
      simp only [evalOtherwise]
      refine (Implements.step (fun x => (.ok (), x)) fun _ s => ⟨s, rfl, rfl, rfl⟩).congr ?_
      intro x result y
      constructor
      · rintro ⟨⟩
        exact .nothing
      · rintro ⟨⟩
        rfl
  | .block body => by
      simp only [evalOtherwise]
      exact (implements_block unlimited body).congr fun _ _ _ => executes_otherwiseBlock_iff.symm
  | .branch b => by
      simp only [evalOtherwise]
      exact (implements_branch unlimited b).congr fun _ _ _ => executes_otherwiseBranch_iff.symm

theorem implements_stmts (unlimited : limits.maxSteps = none) : (ss : List Stmt) →
    Implements limits (mostLevels ss) (fun rounds => evalStmts ⟨host, limits, rounds⟩ ss)
      (Executes host (.stmts ss))
  | [] => by
      simp only [evalStmts]
      refine (Implements.step (fun x => (.ok (), x)) fun _ s => ⟨s, rfl, rfl, rfl⟩).congr ?_
      intro x result y
      constructor
      · rintro ⟨⟩
        exact .nil
      · rintro ⟨⟩
        rfl
  | s :: ss => by
      simp only [evalStmts]
      have first := (implements_stmt unlimited s).mono (Nat.le_max_left _ (mostLevels ss))
      have others := (implements_stmts unlimited ss).mono (Nat.le_max_right s.levels _)
      exact (first.bind fun _ => others).congr fun _ _ _ => executes_cons_iff.symm

end

/-! ## Programs -/

/--
Concluding a program flushes the sink, unless the statements failed, and
leaves all else but the log alone.
-/
theorem Eval.conclude_outcome (given : Except EvalError Unit) (s : State σ) :
    ∃ s', conclude (outcome given s) = outcome (given.bind fun _ => s.sink.flush) s' ∧
      s'.store = s.store ∧ s'.steps = s.steps ∧ s'.errorSpan = s.errorSpan := by
  cases given with
  | error e => exact ⟨_, rfl, rfl, rfl, rfl⟩
  | ok u =>
      change ∃ s', conclude (.ok () s) = outcome s.sink.flush s' ∧ _
      rw [conclude]
      cases s.sink.flush <;> exact ⟨_, rfl, rfl, rfl, rfl⟩

theorem Eval.of_conclude {r : EStateM.Result Halt (State σ) Unit} {result : Except EvalError Unit}
    {s' : State σ} (ended : conclude r = outcome result s') : ∃ given s, r = outcome given s := by
  cases r with
  | ok u s => exact ⟨.ok u, s, rfl⟩
  | error halt s =>
      cases halt with
      | failed e => exact ⟨.error e, s, rfl⟩
      | unfinished => cases result <;> cases ended

/-- The loop `while more() { write(count()); }`. -/
def guardedLoop : Program :=
  let span : Span := default
  ⟨[.loop .whileTrue (.call ⟨"more", span⟩ [] span)
      (.mk [.call ⟨"write", span⟩ [.call ⟨"count", span⟩ [] span] span] span) .nothing span], span⟩

def guardedState : State Catalogue :=
  { env := (Environment.builtins.define ⟨"more", .host 0⟩).define ⟨"count", .host 1⟩,
    host := [⟨"more", .below 3, 0⟩, ⟨"count", .count, 0⟩] }

end TinyScript
