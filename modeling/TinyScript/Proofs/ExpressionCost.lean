import TinyScript.Proofs.SafeRuns
import TinyScript.Proofs.VisitedNodes

/-!
# The cost of an expression

An expression that has a value costs as many visits as it has nodes and as many
levels as it is high, whatever its operators and functions do.  So the budgets
admit it exactly if they still allow so many visits and levels; otherwise its
evaluation ends with the error of a budget, on whichever node comes first.
-/

namespace TinyScript

open Eval

variable {σ α β : Type}

def Expr.size (e : Expr) : Nat := e.nodes.length

def sizeOfAll (es : List Expr) : Nat := (nodesOf es).length

namespace Limits

variable {limits : Limits} {levels visits : Nat} {s : State σ}

/-- In a state the budgets still allow so many levels and so many visits. -/
structure Affords (limits : Limits) (levels visits : Nat) (s : State σ) : Prop where
  levels : levels ≤ limits.maxDepth - s.depth
  visits : ∀ limit, limits.maxSteps = some limit → visits ≤ limit - s.steps

inductive UsedUp (limits : Limits) : EvalError → Prop where
  | levels : UsedUp limits (.stackOverflow limits.maxDepth)
  | visits {limit : Nat} (limited : limits.maxSteps = some limit) :
      UsedUp limits (.stepLimitExceeded limit)

theorem affords_zero (limits : Limits) (s : State σ) : limits.Affords 0 0 s :=
  ⟨Nat.zero_le _, fun _ _ => Nat.zero_le _⟩

/-- Visits add up, and levels that are left again can be opened once more. -/
theorem affords_bind {levels' visits' : Nat} {s' : State σ} (depth : s'.depth = s.depth)
    (steps : s'.steps = s.steps + visits) :
    limits.Affords (max levels levels') (visits + visits') s ↔
      limits.Affords levels visits s ∧ limits.Affords levels' visits' s' := by
  constructor
  · rintro ⟨room, unspent⟩
    refine ⟨⟨by omega, fun limit limited => ?_⟩, ⟨by omega, fun limit limited => ?_⟩⟩
    all_goals
      have enough := unspent limit limited
      omega
  · rintro ⟨⟨room, unspent⟩, room', unspent'⟩
    refine ⟨by omega, fun limit limited => ?_⟩
    have enough := unspent limit limited
    have enough' := unspent' limit limited
    omega

/-- A node costs a level and a visit more than what is inside of it. -/
theorem affords_node :
    limits.Affords (levels + 1) (visits + 1) s ↔ s.depth < limits.maxDepth ∧
      (∀ limit, limits.maxSteps = some limit → s.steps < limit) ∧
      limits.Affords levels visits s.enter.count := by
  have inside : s.enter.count.depth = s.depth + 1 ∧ s.enter.count.steps = s.steps + 1 := ⟨rfl, rfl⟩
  constructor
  · rintro ⟨room, unspent⟩
    refine ⟨by omega, fun limit limited => ?_, by omega, fun limit limited => ?_⟩
    all_goals
      have enough := unspent limit limited
      omega
  · rintro ⟨room, unspent, room', unspent'⟩
    refine ⟨by omega, fun limit limited => ?_⟩
    have enough := unspent limit limited
    have enough' := unspent' limit limited
    omega

/-- The budgets refuse a node for its level or for its visit, or they admit it. -/
theorem admits_or_not (limits : Limits) (s : State σ) :
    limits.maxDepth ≤ s.depth ∨
    (s.depth < limits.maxDepth ∧ ∃ limit, limits.maxSteps = some limit ∧ limit ≤ s.steps) ∨
    (s.depth < limits.maxDepth ∧ ∀ limit, limits.maxSteps = some limit → s.steps < limit) := by
  rcases Nat.lt_or_ge s.depth limits.maxDepth with room | full
  · by_cases unspent : ∀ limit, limits.maxSteps = some limit → s.steps < limit
    · exact .inr (.inr ⟨room, unspent⟩)
    · push Not at unspent
      exact .inr (.inl ⟨room, unspent⟩)
  · exact .inl full

end Limits

/-- A node that is left with a value is left a level higher, and that is all. -/
theorem Eval.of_leave_ok {span : Span} {r : EStateM.Result Halt (State σ) α} {a : α} {s' : State σ}
    (left : leave span r = .ok a s') :
    ∃ s, r = .ok a s ∧ s' = { s with depth := s.depth - 1 } := by
  cases r with
  | ok b s =>
      cases left
      exact ⟨s, rfl, rfl⟩
  | error halt s => cases left

/--
Two evaluations, the first without budgets that matter, the second within
given ones.  Where the first succeeds, it opens and leaves so many levels and
visits so many nodes.  The second does the same if its budgets afford this, and
ends with the error of a budget otherwise.
-/
def Priced (limits : Limits) (levels visits : Nat) (p q : Eval σ α) : Prop :=
  ∀ s a s', p s = .ok a s' → s'.depth = s.depth ∧ s'.steps = s.steps + visits ∧
    (limits.Affords levels visits s → q s = .ok a s') ∧
    (¬ limits.Affords levels visits s →
      ∃ e t, q s = .error (.failed e) t ∧ limits.UsedUp e)

namespace Priced

variable {limits : Limits} {levels visits levels' visits' : Nat} {p q : Eval σ α}

theorem free (balanced : Balanced p) (still : Still p) : Priced limits 0 0 p p := by
  intro s a s' ran
  have steps := still s
  rw [ran] at steps
  exact ⟨balanced.ok ran, steps, fun _ => ran, fun short => absurd (limits.affords_zero s) short⟩

theorem bind {f g : α → Eval σ β} (first : Priced limits levels visits p q)
    (next : ∀ a, Priced limits levels' visits' (f a) (g a)) :
    Priced limits (max levels levels') (visits + visits') (p >>= f) (q >>= g) := by
  intro s b s' ran
  obtain ⟨a, s₁, ran₁, ran₂⟩ := of_bind ran
  obtain ⟨depth₁, steps₁, afforded₁, short₁⟩ := first s a s₁ ran₁
  obtain ⟨depth₂, steps₂, afforded₂, short₂⟩ := next a s₁ b s' ran₂
  have both := @Limits.affords_bind _ limits levels visits s levels' visits' s₁ depth₁ steps₁
  refine ⟨depth₂.trans depth₁, by omega, fun enough => ?_, fun short => ?_⟩
  · obtain ⟨enough₁, enough₂⟩ := both.1 enough
    rw [bind_eq, afforded₁ enough₁]
    exact afforded₂ enough₂
  · rw [bind_eq]
    by_cases enough₁ : limits.Affords levels visits s
    · rw [afforded₁ enough₁]
      exact short₂ fun enough₂ => short (both.2 ⟨enough₁, enough₂⟩)
    · obtain ⟨e, t, failed, usedUp⟩ := short₁ enough₁
      rw [failed]
      exact ⟨e, t, rfl, usedUp⟩

theorem after {p q : Eval σ α} {f g : α → Eval σ β} (first : Priced limits 0 0 p q)
    (next : ∀ a, Priced limits levels visits (f a) (g a)) :
    Priced limits levels visits (p >>= f) (q >>= g) := by
  have priced := first.bind next
  rwa [Nat.zero_max, Nat.zero_add] at priced

theorem quiet {f g : α → Eval σ β} (first : Priced limits levels visits p q)
    (next : ∀ a, Priced limits 0 0 (f a) (g a)) :
    Priced limits levels visits (p >>= f) (q >>= g) := by
  have priced := first.bind next
  rwa [Nat.max_zero, Nat.add_zero] at priced

/-- A node costs a level and a visit, which the budgets must admit before its inside. -/
theorem nested {ample : Limits} (unlimited : ample.maxSteps = none)
    (inside : Priced limits levels visits p q) (span : Span) :
    Priced limits (levels + 1) (visits + 1) (Eval.nested ample span p)
      (Eval.nested limits span q) := by
  intro s a s' ran
  by_cases full : ample.maxDepth ≤ s.depth
  · rw [nested_eq, if_pos full] at ran
    cases ran
  rw [nested_unlimited unlimited (Nat.lt_of_not_le full)] at ran
  obtain ⟨s₁, ran₁, rfl⟩ := of_leave_ok ran
  obtain ⟨depth, steps, afforded, short⟩ := inside s.enter.count a s₁ ran₁
  have entered : s₁.depth = s.depth + 1 := depth
  have counted : s₁.steps = s.steps + 1 + visits := steps
  refine ⟨?_, ?_, fun enough => ?_, fun lacking => ?_⟩
  · change s₁.depth - 1 = s.depth
    omega
  · change s₁.steps = s.steps + (visits + 1)
    omega
  · obtain ⟨room, unspent, within⟩ := Limits.affords_node.1 enough
    rw [nested_within room unspent, afforded within]
    rfl
  · rcases limits.admits_or_not s with room | ⟨room, limit, limited, spent⟩ | ⟨room, unspent⟩
    · rw [nested_eq, if_pos room]
      exact ⟨_, _, rfl, .levels⟩
    · rw [nested_spent room limited spent]
      exact ⟨_, _, rfl, .visits limited⟩
    · have lacking' : ¬ limits.Affords levels visits s.enter.count := fun enough =>
        lacking (Limits.affords_node.2 ⟨room, unspent, enough⟩)
      obtain ⟨e, t, failed, usedUp⟩ := short lacking'
      rw [nested_within room unspent, failed]
      exact ⟨e, _, rfl, usedUp⟩

end Priced

section

variable {host : Host σ} {limits ample : Limits} {rounds more : Nat}

theorem Priced.ofExcept (given : Except EvalError α) :
    Priced limits 0 0 (Eval.ofExcept given : Eval σ α) (Eval.ofExcept given) :=
  .free (fun s => by rw [final_ofExcept]) (still_ofExcept given)

mutual

theorem priced_expr (unlimited : ample.maxSteps = none) : (e : Expr) →
    Priced limits e.height e.size (evalExpr ⟨host, ample, rounds⟩ e)
      (evalExpr ⟨host, limits, more⟩ e)
  | .const literal span => by
      rw [evalExpr, evalExpr]
      exact (Priced.ofExcept literal.value).nested unlimited span
  | .ident name span => by
      rw [evalExpr, evalExpr]
      exact (Priced.free (fun s => by rw [final_lookup]) (still_lookup name)).nested unlimited span
  | .call callee args span => by
      rw [evalExpr_call, evalExpr_call]
      refine ((priced_call unlimited callee.name args).quiet fun result => ?_).nested unlimited span
      exact .free (fun _ => rfl) (fun _ => rfl)
  | .additive left op right span => by
      have size : (Expr.additive left op right span).size = left.size + right.size + 1 := by
        simp [Expr.size, Expr.nodes]
      rw [evalExpr, evalExpr, size]
      refine ((priced_expr unlimited left).bind fun a => ?_).nested unlimited span
      exact (priced_expr unlimited right).quiet fun b => .ofExcept (op.arithmetic a b)
  | .comparison left op right span => by
      have size : (Expr.comparison left op right span).size = left.size + right.size + 1 := by
        simp [Expr.size, Expr.nodes]
      rw [evalExpr, evalExpr, size]
      refine ((priced_expr unlimited left).bind fun a => ?_).nested unlimited span
      exact (priced_expr unlimited right).quiet fun b => .ofExcept (op.comparison a b)
  | .paren inner span => by
      rw [evalExpr, evalExpr]
      exact (priced_expr unlimited inner).nested unlimited span

theorem priced_args (unlimited : ample.maxSteps = none) : (es : List Expr) →
    Priced limits (tallest es) (sizeOfAll es) (evalArgs ⟨host, ample, rounds⟩ es)
      (evalArgs ⟨host, limits, more⟩ es)
  | [] => by
      rw [evalArgs, evalArgs]
      exact .free (fun _ => rfl) (fun _ => rfl)
  | e :: es => by
      have size : sizeOfAll (e :: es) = e.size + sizeOfAll es := by
        simp [sizeOfAll, Expr.size, nodesOf]
      rw [evalArgs, evalArgs, size]
      refine (priced_expr unlimited e).bind fun v => ?_
      exact (priced_args unlimited es).quiet fun vs => .free (fun _ => rfl) (fun _ => rfl)

theorem priced_call (unlimited : ample.maxSteps = none) (name : String) (args : List Expr) :
    Priced limits (tallest args) (sizeOfAll args) (evalCall ⟨host, ample, rounds⟩ name args)
      (evalCall ⟨host, limits, more⟩ name args) := by
  refine (Priced.free (fun s => by rw [final_callee]) (still_callee name)).after fun f => ?_
  refine (priced_args unlimited args).quiet fun values => ?_
  have built : Built ⟨host, ample, rounds⟩
      (do emit (.called name values.length); invoke host f values) :=
    .bind (.emit _) fun _ => .invoke f values
  exact .free built.balanced ((still_emit _).bind fun _ => still_invoke ⟨host, ample, rounds⟩ f _)

end

end

/--
Expressions have an exact cost.  Suppose that an expression has a value
without a step limit and with room for its levels.  Under any budgets it then
has the same value, in the same state, after exactly as many visits as it has
nodes, if it is no higher than the levels that are left and has no more nodes
than the visits that are left; and otherwise it ends with the error of a budget.
-/
theorem expression_cost {host : Host σ} {ample limits : Limits} {rounds more : Nat} {e : Expr}
    {s s' : State σ} {v : Value} (unlimited : ample.maxSteps = none)
    (succeeds : evalExpr ⟨host, ample, rounds⟩ e s = .ok v s') :
    (limits.Affords e.height e.size s →
      evalExpr ⟨host, limits, more⟩ e s = .ok v s' ∧ s'.steps = s.steps + e.size) ∧
    (¬ limits.Affords e.height e.size s →
      ∃ error t, evalExpr ⟨host, limits, more⟩ e s = .error (.failed error) t ∧
        limits.UsedUp error) := by
  obtain ⟨_, steps, afforded, short⟩ := priced_expr unlimited e s v s' succeeds
  exact ⟨fun enough => ⟨afforded enough, steps⟩, short⟩

/-- The expression `count() + (1)`, of four nodes on three levels. -/
def countAndOne : Expr :=
  let span : Span := default
  .additive (.call ⟨"count", span⟩ [] span) .add
    (.paren (.const ⟨.integer, "1"⟩ span) span) span

/-- Four visits and three levels are enough for it; three visits are not, nor are two levels. -/
theorem expression_cost_countAndOne :
    ∃ s', evalExpr ⟨Catalogue.host, {}, 0⟩ countAndOne countingState = .ok (.integer 2) s' ∧
      (evalExpr ⟨Catalogue.host, { maxSteps := some 4, maxDepth := 3 }, 0⟩ countAndOne
        countingState = .ok (.integer 2) s' ∧ s'.steps = 4) ∧
      (∃ error t, evalExpr ⟨Catalogue.host, { maxSteps := some 3, maxDepth := 3 }, 0⟩ countAndOne
        countingState = .error (.failed error) t ∧
        Limits.UsedUp { maxSteps := some 3, maxDepth := 3 } error) ∧
      ∃ error t, evalExpr ⟨Catalogue.host, { maxSteps := some 4, maxDepth := 2 }, 0⟩ countAndOne
        countingState = .error (.failed error) t ∧
        Limits.UsedUp { maxSteps := some 4, maxDepth := 2 } error := by
  have succeeds : evalExpr ⟨Catalogue.host, {}, 0⟩ countAndOne countingState =
      .ok (.integer 2) (final (evalExpr ⟨Catalogue.host, {}, 0⟩ countAndOne countingState)) :=
    @eq_outcome_of_result _ Value _ (.ok (.integer 2)) (by decide +kernel)
  have cost (limits : Limits) := @expression_cost _ _ {} limits 0 0 _ _ _ _ rfl succeeds
  refine ⟨_, succeeds, ?_, ?_, ?_⟩
  · refine (cost { maxSteps := some 4, maxDepth := 3 }).1 ⟨by decide, ?_⟩
    rintro limit ⟨⟩
    decide
  · refine (cost { maxSteps := some 3, maxDepth := 3 }).2 fun afforded => ?_
    exact absurd (afforded.visits 3 rfl) (by decide)
  · refine (cost { maxSteps := some 4, maxDepth := 2 }).2 fun afforded => ?_
    exact absurd afforded.levels (by decide)

end TinyScript
