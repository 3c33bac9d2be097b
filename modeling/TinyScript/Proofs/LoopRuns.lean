import TinyScript.Proofs.VisitedNodes

/-!
# Runs of loops

A loop is run where an evaluation comes to it.  If the loop is completed after
one round or more, then it has its rounds in one way only, and the number of
nodes that are visited tells its end from the ends of all loops inside of it.
-/

namespace TinyScript

open Eval

variable {σ α β : Type}

abbrev evalRound (setting : Setting σ) (kind : LoopKind) (condition : Expr) (body : Block) :
    Eval σ Bool := do
  evalBlock setting body
  evalCheck setting kind condition

/--
Rounds of a loop, with their number: the body runs, then the condition is
checked, until a check ends the loop.
-/
inductive Rounds (setting : Setting σ) (kind : LoopKind) (condition : Expr) (body : Block) :
    Nat → State σ → State σ → Prop where
  | last {s s₁ s₂ : State σ} (ran : evalBlock setting body s = .ok () s₁)
      (checked : evalCheck setting kind condition s₁ = .ok false s₂) :
      Rounds setting kind condition body 1 s s₂
  | more {n : Nat} {s s₁ s₂ t : State σ} (ran : evalBlock setting body s = .ok () s₁)
      (checked : evalCheck setting kind condition s₁ = .ok true s₂)
      (others : Rounds setting kind condition body n s₂ t) :
      Rounds setting kind condition body (n + 1) s t

/-- A loop that is run: where it begins, where it ends, and the rounds between. -/
structure LoopRun (σ : Type) where
  kind : LoopKind
  condition : Expr
  body : Block
  otherwise : Otherwise
  span : Span
  begun : State σ
  rounds : Nat
  ended : State σ

namespace LoopRun

def stmt (run : LoopRun σ) : Stmt :=
  .loop run.kind run.condition run.body run.otherwise run.span

/-- The loop succeeds, its first check lets it begin, and it has so many rounds. -/
structure Completed (setting : Setting σ) (run : LoopRun σ) : Prop where
  succeeded : ∃ v, evalStmt setting run.stmt run.begun = .ok v run.ended
  counted : ∃ t u,
    evalCheck setting run.kind run.condition run.begun.enter.count = .ok true t ∧
      Rounds setting run.kind run.condition run.body run.rounds t u

/-- A node, from a state on, is the loop of a completed run. -/
structure At (setting : Setting σ) (n : Node) (s : State σ) (run : LoopRun σ) : Prop where
  node : n = .stmt run.stmt
  begun : s = run.begun
  completed : run.Completed setting

/-- An evaluation from a point comes to the loop, and the loop is completed. -/
structure From (setting : Setting σ) (focus : Focus) (s : State σ) (run : LoopRun σ) : Prop where
  reached : Relation.ReflTransGen (Comes setting) (focus, s) (.node (.stmt run.stmt), run.begun)
  completed : run.Completed setting

end LoopRun

namespace LoopRun

variable {setting : Setting σ} {focus next : Focus} {s t : State σ} {run : LoopRun σ}

theorem From.head (comes : Comes setting (focus, s) (next, t)) (found : run.From setting next t) :
    run.From setting focus s :=
  ⟨.head comes found.reached, found.completed⟩

/-- A loop is found at once, or behind a first step. -/
theorem From.cases (found : run.From setting focus s) :
    (focus = .node (.stmt run.stmt) ∧ s = run.begun) ∨
      ∃ next t, Comes setting (focus, s) (next, t) ∧ run.From setting next t := by
  obtain ⟨reached, completed⟩ := found
  rcases Relation.ReflTransGen.cases_head reached with same | ⟨⟨next, t⟩, comes, rest⟩
  · exact .inl (Prod.mk.inj same)
  · exact .inr ⟨next, t, comes, rest, completed⟩

theorem From.step (found : run.From setting focus s) (between : ∀ n, focus ≠ .node n) :
    ∃ next t, Comes setting (focus, s) (next, t) ∧ run.From setting next t := by
  rcases found.cases with ⟨same, _⟩ | stepped
  · exact absurd same (between _)
  · exact stepped

end LoopRun

def Stmt.Plain : Stmt → Prop
  | .assign _ _ _ => True
  | .call _ _ _ => True
  | _ => False

def Focus.OfExpr : Focus → Prop
  | .node (.expr _) => True
  | .inside (.expr _) => True
  | .exprs _ => True
  | _ => False

theorem Comes.ofExpr {setting : Setting σ} {p q : Focus × State σ} (comes : Comes setting p q)
    (ofExpr : p.1.OfExpr) : q.1.OfExpr := by
  cases comes with
  | @enter n => cases n <;> exact ofExpr
  | operands => trivial
  | expr => trivial
  | exprs => trivial
  | _ => exact absurd ofExpr id

/-- There are no loops in expressions. -/
theorem LoopRun.From.not_ofExpr {setting : Setting σ} {focus : Focus} {s : State σ}
    {run : LoopRun σ} (found : run.From setting focus s) : ¬ focus.OfExpr := by
  intro ofExpr
  have kept : ∀ q, Relation.ReflTransGen (Comes setting) (focus, s) q → q.1.OfExpr := by
    intro q reached
    induction reached with
    | refl => exact ofExpr
    | tail _ last ih => exact last.ofExpr ih
  exact kept _ found.reached

namespace LoopRun

variable {setting : Setting σ} {s : State σ} {run : LoopRun σ}

theorem from_node {n : Node} : run.From setting (.node n) s ↔
    run.At setting n s ∨
      (s.depth < setting.limits.maxDepth ∧ run.From setting (.inside n) s.enter) := by
  constructor
  · intro found
    rcases found.cases with ⟨same, begun⟩ | ⟨next, t, comes, rest⟩
    · exact .inl ⟨Focus.node.inj same, begun, found.completed⟩
    · cases comes with
      | enter room => exact .inr ⟨room, rest⟩
  · rintro (⟨rfl, rfl, completed⟩ | ⟨room, rest⟩)
    · exact ⟨.refl, completed⟩
    · exact rest.head (.enter room)

theorem from_inside_loop {kind : LoopKind} {condition : Expr} {body : Block} {otherwise : Otherwise}
    {span : Span} :
    run.From setting (.inside (.stmt (.loop kind condition body otherwise span))) s ↔
      ∃ again s₂, (tick setting.limits >>= fun _ => evalCheck setting kind condition) s =
          .ok again s₂ ∧
        run.From setting (if again then .rounds kind condition body else .otherwise otherwise)
          s₂ := by
  constructor
  · intro found
    obtain ⟨next, t, comes, rest⟩ := found.step nofun
    cases comes with
    | operands => exact absurd trivial rest.not_ofExpr
    | firstCheck => exact absurd trivial rest.not_ofExpr
    | rounds counted checked => exact ⟨true, t, by rw [bind_eq, counted]; exact checked, rest⟩
    | instead counted checked => exact ⟨false, t, by rw [bind_eq, counted]; exact checked, rest⟩
  · rintro ⟨again, s₂, ran, rest⟩
    obtain ⟨_, s₁, counted, checked⟩ := of_bind ran
    cases again with
    | true => exact rest.head (.rounds counted checked)
    | false => exact rest.head (.instead counted checked)

theorem from_rounds {kind : LoopKind} {condition : Expr} {body : Block} :
    run.From setting (.rounds kind condition body) s ↔ run.From setting (.block body) s ∨
      ∃ again s₂, evalRound setting kind condition body s = .ok again s₂ ∧
        again = true ∧ run.From setting (.rounds kind condition body) s₂ := by
  constructor
  · intro found
    obtain ⟨next, t, comes, rest⟩ := found.step nofun
    cases comes with
    | round => exact .inl rest
    | check => exact absurd trivial rest.not_ofExpr
    | again ran checked =>
        exact .inr ⟨true, t, by rw [evalRound, bind_eq, ran]; exact checked, rfl, rest⟩
  · rintro (inBody | ⟨_, s₂, ran, rfl, rest⟩)
    · exact inBody.head .round
    · obtain ⟨_, s₁, ran, checked⟩ := of_bind ran
      exact rest.head (.again ran checked)

theorem from_inside_branch {b : Branch} : run.From setting (.inside (.stmt (.branch b))) s ↔
    ∃ u s₁, tick setting.limits s = .ok u s₁ ∧ run.From setting (.branch b) s₁ := by
  constructor
  · intro found
    obtain ⟨next, t, comes, rest⟩ := found.step nofun
    cases comes with
    | operands => exact absurd trivial rest.not_ofExpr
    | branch counted => exact ⟨(), t, counted, rest⟩
  · rintro ⟨_, s₁, counted, rest⟩
    exact rest.head (.branch counted)

theorem from_branch {condition : Expr} {body : Block} {otherwise : Otherwise} {span : Span} :
    run.From setting (.branch (.mk condition body otherwise span)) s ↔
      ∃ holds s₁, evalCondition setting "if" condition s = .ok holds s₁ ∧
        run.From setting (if holds then .block body else .otherwise otherwise) s₁ := by
  constructor
  · intro found
    obtain ⟨next, t, comes, rest⟩ := found.step nofun
    cases comes with
    | condition => exact absurd trivial rest.not_ofExpr
    | holds checked => exact ⟨true, t, checked, rest⟩
    | fails checked => exact ⟨false, t, checked, rest⟩
  · rintro ⟨holds, s₁, checked, rest⟩
    cases holds with
    | true => exact rest.head (.holds checked)
    | false => exact rest.head (.fails checked)

theorem from_otherwise_nothing : ¬ run.From setting (.otherwise .nothing) s := by
  intro found
  obtain ⟨next, t, comes, rest⟩ := found.step nofun
  cases comes

/-- From a point that only one other point follows. -/
theorem from_only {focus next : Focus} {t : State σ} (between : ∀ n, focus ≠ .node n)
    (comes : Comes setting (focus, s) (next, t))
    (only : ∀ q, Comes setting (focus, s) q → q = (next, t)) :
    run.From setting focus s ↔ run.From setting next t := by
  refine ⟨fun found => ?_, .head comes⟩
  obtain ⟨next', t', comes', rest⟩ := found.step between
  obtain ⟨rfl, rfl⟩ := Prod.mk.inj (only _ comes')
  exact rest

theorem from_otherwise_block {b : Block} :
    run.From setting (.otherwise (.block b)) s ↔ run.From setting (.block b) s :=
  from_only nofun .otherwiseBlock (by rintro q ⟨⟩; rfl)

theorem from_otherwise_branch {b : Branch} :
    run.From setting (.otherwise (.branch b)) s ↔ run.From setting (.branch b) s :=
  from_only nofun .otherwiseBranch (by rintro q ⟨⟩; rfl)

theorem from_block {ss : List Stmt} {span : Span} :
    run.From setting (.block (.mk ss span)) s ↔ run.From setting (.stmts ss) s :=
  from_only nofun .block (by rintro q ⟨⟩; rfl)

theorem from_stmts_nil : ¬ run.From setting (.stmts []) s := by
  intro found
  obtain ⟨next, t, comes, rest⟩ := found.step nofun
  cases comes

theorem from_stmts_cons {stmt : Stmt} {ss : List Stmt} :
    run.From setting (.stmts (stmt :: ss)) s ↔ run.From setting (.node (.stmt stmt)) s ∨
      ∃ v s₁, evalStmt setting stmt s = .ok v s₁ ∧ run.From setting (.stmts ss) s₁ := by
  constructor
  · intro found
    obtain ⟨next, t, comes, rest⟩ := found.step nofun
    cases comes with
    | stmt => exact .inl rest
    | stmts ran => exact .inr ⟨_, t, ran, rest⟩
  · rintro (inFirst | ⟨v, s₁, ran, rest⟩)
    · exact inFirst.head .stmt
    · exact rest.head (.stmts ran)

theorem not_from_plain {stmt : Stmt} (plain : stmt.Plain) :
    ¬ run.From setting (.node (.stmt stmt)) s := by
  rw [from_node]
  rintro (here | ⟨_, found⟩)
  · rw [Node.stmt.inj here.node] at plain
    exact plain
  · obtain ⟨next, t, comes, rest⟩ := found.step nofun
    cases comes with
    | operands => exact rest.not_ofExpr trivial
    | _ => exact plain

end LoopRun

/-- A run that ends without a value has ended with an error. -/
theorem Eval.of_error {halt : Halt} {s t : State σ} {result : Except EvalError α}
    (ended : EStateM.Result.error halt s = outcome result t) :
    ∃ e, halt = .failed e ∧ result = .error e ∧ s = t := by
  cases result with
  | ok a => cases ended
  | error e =>
      cases ended
      exact ⟨e, rfl, rfl, rfl⟩

/-- Leaving a node changes neither the log nor the number of visited nodes. -/
theorem Eval.of_leave_events {span : Span} {r : EStateM.Result Halt (State σ) α}
    {result : Except EvalError α} {t : State σ} (left : leave span r = outcome result t) :
    ∃ s, r = outcome result s ∧ t.events = s.events ∧ t.steps = s.steps := by
  cases r with
  | ok a s =>
      cases result <;> cases left
      exact ⟨s, rfl, rfl, rfl⟩
  | error halt s =>
      obtain ⟨e, rfl, rfl, rfl⟩ := of_error left
      exact ⟨s, rfl, rfl, rfl⟩

theorem Eval.of_tick {limits : Limits} {s t : State σ} (counted : tick limits s = .ok () t) :
    t = s.count := by
  have count := final_tick limits s
  rwa [counted] at count

section

variable {setting : Setting σ} {kind : LoopKind} {condition : Expr} {body : Block}
  {otherwise : Otherwise} {span : Span} {n m : Nat} {s s₂ t u : State σ}

/-- An expression with a value has visited a node. -/
theorem steps_lt_of_expr {e : Expr} {v : Value} (ran : evalExpr setting e s = .ok v t) :
    s.steps < t.steps := by
  obtain ⟨_, inside, _, visits, built⟩ : Visits (fun _ _ => True) setting setting e.span
    (evalExpr setting e) (evalExpr setting e) := visits_expr e fun _ _ => trivial
  rw [visits, nested_eq] at ran
  split at ran
  · cases ran
  · obtain ⟨s₁, entered, _, steps⟩ := of_leave_events (show _ = outcome (.ok v) t from ran)
    obtain ⟨_, s₀, counted, evaluated⟩ := of_bind (show _ = EStateM.Result.ok v s₁ from entered)
    have grown := (built.growing s₀).2
    rw [evaluated, of_tick counted] at grown
    rw [steps]
    exact Nat.lt_of_succ_le grown

theorem steps_lt_of_check {again : Bool}
    (checked : evalCheck setting kind condition s = .ok again t) : s.steps < t.steps := by
  obtain ⟨holds, s₁, checked, same⟩ := of_bind checked
  obtain ⟨v, s₀, evaluated, decided⟩ := of_bind checked
  cases same
  have still := still_condition kind.keyword condition.span v s₀
  rw [decided] at still
  exact Nat.lt_of_lt_of_eq (steps_lt_of_expr evaluated) still.symm

namespace Rounds

/-- A loop has its rounds in one way only. -/
theorem unique (first : Rounds setting kind condition body n s t)
    (second : Rounds setting kind condition body m s u) : n = m ∧ t = u := by
  induction first generalizing m with
  | last ran checked =>
      cases second with
      | last ran' checked' =>
          cases ran.symm.trans ran'
          cases checked.symm.trans checked'
          exact ⟨rfl, rfl⟩
      | more ran' checked' =>
          cases ran.symm.trans ran'
          cases checked.symm.trans checked'
  | more ran checked _ ih =>
      cases second with
      | last ran' checked' =>
          cases ran.symm.trans ran'
          cases checked.symm.trans checked'
      | more ran' checked' others =>
          cases ran.symm.trans ran'
          cases checked.symm.trans checked'
          obtain ⟨rfl, rfl⟩ := ih others
          exact ⟨rfl, rfl⟩

/-- Repeating rounds adds their number to those that are done. -/
theorem of_repeatRounds {bound done : Nat}
    (ended : repeatRounds (evalRound setting kind condition body) bound done s = .ok n t) :
    ∃ m, n = done + m ∧ Rounds setting kind condition body m s t := by
  induction bound generalizing done s with
  | zero => cases ended
  | succ bound ih =>
      rw [repeatRounds] at ended
      obtain ⟨again, s₂, round, rest⟩ := of_bind ended
      obtain ⟨_, s₁, ran, checked⟩ := of_bind round
      cases again with
      | true =>
          obtain ⟨m, rfl, others⟩ := ih rest
          exact ⟨m + 1, Nat.add_right_comm done 1 m, .more ran checked others⟩
      | false =>
          cases rest
          exact ⟨1, rfl, .last ran checked⟩

theorem steps_lt (rounds : Rounds setting kind condition body n s t) : s.steps < t.steps := by
  have grown {s s₁ : State σ} (ran : evalBlock setting body s = .ok () s₁) :
      s.steps ≤ s₁.steps := by
    have grows := ((built_block setting body).growing s).2
    rwa [ran] at grows
  induction rounds with
  | last ran checked => exact Nat.lt_of_le_of_lt (grown ran) (steps_lt_of_check checked)
  | more ran checked _ ih =>
      exact Nat.lt_trans (Nat.lt_of_le_of_lt (grown ran) (steps_lt_of_check checked)) ih

end Rounds

/-! ## Completed loops -/

theorem discard_eq_ok {p : Eval σ α} :
    discard p s = .ok () t ↔ ∃ a, p s = .ok a t := by
  rw [discard_eq, bind_eq]
  cases p s with
  | ok a s₁ =>
      constructor
      · intro same
        cases same
        exact ⟨a, rfl⟩
      · rintro ⟨_, same⟩
        cases same
        rfl
  | error halt s₁ => exact ⟨nofun, nofun⟩

/-- A loop that is completed was entered, and its first check let it begin. -/
theorem LoopRun.Completed.entered {run : LoopRun σ} (completed : run.Completed setting) :
    run.begun.depth < setting.limits.maxDepth ∧ ∃ t u,
      (tick setting.limits >>= fun _ => evalCheck setting run.kind run.condition)
        run.begun.enter = .ok true t ∧
      Rounds setting run.kind run.condition run.body run.rounds t u := by
  obtain ⟨succeeded, t, u, checked, rounds⟩ := completed
  have ran := discard_eq_ok.2 succeeded
  rw [LoopRun.stmt, discard_loop, nested_eq] at ran
  split at ran
  · cases ran
  · next room =>
      obtain ⟨s₁, inside, _⟩ := of_leave_events (show _ = outcome (.ok ()) run.ended from ran)
      obtain ⟨_, s₀, counted, _⟩ := of_bind (show _ = EStateM.Result.ok () s₁ from inside)
      refine ⟨Nat.lt_of_not_le room, t, u, ?_, rounds⟩
      rw [bind_eq, counted, of_tick counted]
      exact checked

/-- A loop whose first check lets it begin has its rounds, and is logged behind them. -/
theorem discard_loop_again (room : s.depth < setting.limits.maxDepth)
    (checked : (tick setting.limits >>= fun _ => evalCheck setting kind condition) s.enter =
      .ok true s₂) :
    discard (evalStmt setting (.loop kind condition body otherwise span)) s =
      leave span ((do
        let n ← repeatRounds (evalRound setting kind condition body) setting.rounds 0
        emit (.loopFinished kind n)) s₂) := by
  rw [discard_loop, nested_eq, if_neg (Nat.not_le_of_lt room), ← bind_assoc, bind_eq, checked]
  rfl

/-- The runs of one loop from one state: it has only one, if any. -/
theorem LoopRun.at_iff (room : s.depth < setting.limits.maxDepth)
    (checked : (tick setting.limits >>= fun _ => evalCheck setting kind condition) s.enter =
      .ok true s₂)
    (repeated : repeatRounds (evalRound setting kind condition body) setting.rounds 0 s₂ = .ok n t)
    (run : LoopRun σ) :
    run.At setting (.stmt (.loop kind condition body otherwise span)) s ↔
      run = ⟨kind, condition, body, otherwise, span, s, n,
        final (leave span (.ok () (t.log (.loopFinished kind n))))⟩ := by
  obtain ⟨m, counted, rounds⟩ := Rounds.of_repeatRounds repeated
  rw [Nat.zero_add] at counted
  subst counted
  have ran := @discard_loop_again _ setting kind condition body otherwise span s s₂ room checked
  rw [bind_eq, repeated] at ran
  constructor
  · rintro ⟨same, rfl, completed⟩
    obtain ⟨_, t', u, checked', rounds'⟩ := completed.entered
    have succeeded := discard_eq_ok.2 completed.succeeded
    obtain ⟨kind', condition', body', otherwise', span', begun, n', ended⟩ := run
    cases same
    cases checked.symm.trans checked'
    obtain ⟨rfl, rfl⟩ := rounds.unique rounds'
    have last := congrArg final (ran.symm.trans succeeded)
    exact congrArg _ last.symm
  · rintro rfl
    obtain ⟨_, s₁, counted, first⟩ := of_bind checked
    exact ⟨rfl, rfl, discard_eq_ok.1 ran, s₂, t, of_tick counted ▸ first, rounds⟩

end

end TinyScript
