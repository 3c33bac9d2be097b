import TinyScript.Proofs.DepthCounter

/-!
# Every visited node is a point of the evaluation

The points to which an evaluation comes are described along the tree, apart
from the evaluation itself.  No visit is left out of the description: whenever
a state counts one more visited node, the evaluation has come to the inside of
a node, in a state with this count.
-/

namespace TinyScript

open Eval

variable {σ α β : Type}

theorem Eval.of_bind {p : Eval σ α} {f : α → Eval σ β} {s s' : State σ} {b : β}
    (ran : (p >>= f) s = .ok b s') : ∃ a s₁, p s = .ok a s₁ ∧ f a s₁ = .ok b s' := by
  rw [bind_eq] at ran
  cases first : p s with
  | ok a s₁ =>
      rw [first] at ran
      exact ⟨a, s₁, rfl, ran⟩
  | error halt s₁ =>
      rw [first] at ran
      cases ran

/-- An evaluation from a point comes to the inside of a node after a number of visited nodes. -/
def Visited (setting : Setting σ) (focus : Focus) (s : State σ) (count : Nat) : Prop :=
  ∃ n t, Relation.ReflTransGen (Comes setting) (focus, s) (.inside n, t) ∧ t.steps = count

theorem Visited.of_comes {setting : Setting σ} {focus next : Focus} {s t : State σ} {count : Nat}
    (comes : Comes setting (focus, s) (next, t)) (visited : Visited setting next t count) :
    Visited setting focus s count := by
  obtain ⟨n, u, reached, counted⟩ := visited
  exact ⟨n, u, .head comes reached, counted⟩

/-- All nodes that a computation visits are among the points behind a given one. -/
def Accounts (setting : Setting σ) (focus : Focus) (p : Eval σ α) : Prop :=
  ∀ s count, s.steps ≤ count → count < (final (p s)).steps → Visited setting focus s count

def Eval.Still (p : Eval σ α) : Prop := ∀ s : State σ, (final (p s)).steps = s.steps

theorem Eval.Still.bind {p : Eval σ α} {f : α → Eval σ β} (first : Still p)
    (next : ∀ a, Still (f a)) : Still (p >>= f) :=
  final_bind (R := fun s t => t.steps = s.steps) (fun before after => after.trans before) first next

namespace Accounts

variable {setting : Setting σ} {focus : Focus} {p : Eval σ α}

theorem still (still : Still p) : Accounts setting focus p := by
  intro s count low high
  rw [still s] at high
  exact absurd high (Nat.not_lt.2 low)

theorem bind {g : α → Eval σ β} (first : Accounts setting focus p)
    (next : ∀ a s s', p s = .ok a s' → ∀ count, s'.steps ≤ count →
      count < (final (g a s')).steps → Visited setting focus s count) :
    Accounts setting focus (p >>= g) := by
  intro s count low high
  rw [bind_eq] at high
  have visited := first s count low
  cases ran : p s with
  | ok a s' =>
      rw [ran] at high visited
      -- the count of the state between the two parts tells which of them visits the node
      by_cases within : count < s'.steps
      · exact visited within
      · exact next a s s' ran count (Nat.not_lt.1 within) high
  | error halt s' =>
      rw [ran] at high visited
      exact visited high

/-- After the first part the evaluation is at another point, from which the second part runs. -/
theorem comes {next : α → Focus} {g : α → Eval σ β} (first : Accounts setting focus p)
    (comes : ∀ a s s', p s = .ok a s' → Comes setting (focus, s) (next a, s'))
    (second : ∀ a, Accounts setting (next a) (g a)) : Accounts setting focus (p >>= g) :=
  first.bind fun a s s' ran count low high =>
    .of_comes (comes a s s' ran) (second a s' count low high)

/-- What follows the first part visits no node. -/
theorem quiet {g : α → Eval σ β} (first : Accounts setting focus p) (next : ∀ a, Still (g a)) :
    Accounts setting focus (p >>= g) :=
  first.bind fun a _ s' _ _ low high => absurd (next a s' ▸ high) (Nat.not_lt.2 low)

/-- A computation at a point that the evaluation comes to at once. -/
theorem at_once {next : Focus} (comes : ∀ s, Comes setting (focus, s) (next, s))
    (accounted : Accounts setting next p) : Accounts setting focus p := by
  intro s count low high
  exact .of_comes (comes s) (accounted s count low high)

end Accounts

section

variable {setting : Setting σ} {n : Node}

theorem accounts_tick (setting : Setting σ) (n : Node) :
    Accounts setting (.inside n) (tick setting.limits) := by
  intro s count low high
  rw [final_tick] at high
  have same : s.steps = count := Nat.le_antisymm low (Nat.le_of_lt_succ high)
  exact ⟨n, s, .refl, same⟩

theorem Accounts.nested {p : Eval σ α}
    (inside : Accounts setting (.inside n) (tick setting.limits >>= fun _ => p)) :
    Accounts setting (.node n) (nested setting.limits n.span p) := by
  intro s count low high
  rw [nested_eq] at high
  split at high
  · exact absurd high (Nat.not_lt.2 low)
  · next room =>
      refine .of_comes (.enter (Nat.lt_of_not_le room)) (inside s.enter count low ?_)
      cases ran : (tick setting.limits >>= fun _ => p) s.enter <;> rw [ran] at high <;> exact high

/-- A node that evaluates its operands at once. -/
theorem Accounts.plain {p : Eval σ α} (given : Accounts setting (.exprs n.operands) p)
    (unprepared : n.prepare = (pure none : Eval σ (Option Native))) :
    Accounts setting (.node n) (Eval.nested setting.limits n.span p) := by
  refine .nested ((accounts_tick setting n).comes (fun _ s s₁ counted => ?_) fun _ => given)
  have prepared : n.prepare s₁ = .ok none s₁ := by rw [unprepared]; rfl
  exact .operands counted prepared

theorem still_callee (name : String) : Still (callee name : Eval σ Native) := by
  intro s
  rw [final_callee]

/-- A node that finds a function before it evaluates its operands. -/
theorem Accounts.call {name : String} {p : Native → Eval σ α}
    (given : ∀ f, Accounts setting (.exprs n.operands) (p f))
    (prepares : n.prepare = (do return some (← callee name) : Eval σ (Option Native))) :
    Accounts setting (.node n) (Eval.nested setting.limits n.span (callee name >>= p)) := by
  have found : Accounts setting (.inside n) (tick setting.limits >>= fun _ => callee name) :=
    (accounts_tick setting n).quiet fun _ => still_callee name
  refine .nested ?_
  rw [← bind_assoc]
  refine found.comes (fun f s s₂ ran => ?_) given
  obtain ⟨_, s₁, counted, called⟩ := of_bind ran
  have prepared : n.prepare s₁ = .ok (some f) s₂ := by rw [prepares, bind_eq, called]; rfl
  exact .operands counted prepared

end

section

variable (setting : Setting σ)

theorem still_ofExcept (x : Except EvalError α) : Still (ofExcept x : Eval σ α) := by
  intro s
  rw [final_ofExcept]

theorem still_lookup (name : String) : Still (lookup name : Eval σ Value) := by
  intro s
  rw [final_lookup]

theorem still_emit (e : Event) : Still (emit e : Eval σ Unit) := fun _ => rfl

theorem still_invoke (f : Native) (values : List Value) :
    Still (invoke setting.host f values) := by
  intro s
  rw [invoke_eq, final_ofExcept]
  rfl

/-- The first of several expressions, and what is done with the others. -/
theorem Accounts.first {setting : Setting σ} {e : Expr} {es : List Expr} {g : Value → Eval σ α}
    (first : Accounts setting (.node (.expr e)) (evalExpr setting e))
    (others : ∀ v, Accounts setting (.exprs es) (g v)) :
    Accounts setting (.exprs (e :: es)) (evalExpr setting e >>= g) :=
  (first.at_once fun _ => .expr).comes (fun _ _ _ ran => .exprs ran) others

mutual

theorem accounts_expr : (e : Expr) → Accounts setting (.node (.expr e)) (evalExpr setting e)
  | .const literal span => by
      rw [evalExpr]
      exact .plain (n := .expr (.const literal span)) (.still (still_ofExcept _)) rfl
  | .ident name span => by
      rw [evalExpr]
      exact .plain (n := .expr (.ident name span)) (.still (still_lookup _)) rfl
  | .call name args span => by
      rw [evalExpr]
      refine .call (n := .expr (.call name args span)) (fun f => ?_) rfl
      refine (accounts_args args).quiet fun values => (still_emit _).bind fun _ => ?_
      exact (still_invoke setting f values).bind fun _ _ => rfl
  | .additive left op right span => by
      rw [evalExpr]
      refine .plain (n := .expr (.additive left op right span)) ?_ rfl
      refine (accounts_expr left).first fun a => (accounts_expr right).first fun b => ?_
      exact .still (still_ofExcept _)
  | .comparison left op right span => by
      rw [evalExpr]
      refine .plain (n := .expr (.comparison left op right span)) ?_ rfl
      refine (accounts_expr left).first fun a => (accounts_expr right).first fun b => ?_
      exact .still (still_ofExcept _)
  | .paren inner span => by
      rw [evalExpr]
      refine .plain (n := .expr (.paren inner span)) ?_ rfl
      exact (accounts_expr inner).at_once fun _ => .expr

theorem accounts_args : (es : List Expr) → Accounts setting (.exprs es) (evalArgs setting es)
  | [] => by
      rw [evalArgs]
      exact .still fun _ => rfl
  | e :: es => by
      rw [evalArgs]
      exact (accounts_expr e).first fun v => (accounts_args es).quiet fun _ _ => rfl

end

theorem still_condition (keyword : String) (span : Span) (v : Value) :
    Still (condition keyword span v : Eval σ Bool) := by
  intro s
  cases v <;> rfl

theorem accounts_condition (keyword : String) (e : Expr) :
    Accounts setting (.node (.expr e)) (evalCondition setting keyword e) :=
  (accounts_expr setting e).quiet fun v => still_condition keyword e.span v

theorem accounts_check (kind : LoopKind) (condition : Expr) :
    Accounts setting (.node (.expr condition)) (evalCheck setting kind condition) :=
  (accounts_condition setting kind.keyword condition).quiet fun _ _ => rfl

/-- The rounds of a loop, whatever bounds their number. -/
theorem accounts_rounds (kind : LoopKind) (condition : Expr) {body : Block}
    (inside : Accounts setting (.block body) (evalBlock setting body)) (bound done : Nat) :
    Accounts setting (.rounds kind condition body) (repeatRounds (do
      evalBlock setting body
      evalCheck setting kind condition) bound done) := by
  have round : Accounts setting (.rounds kind condition body) (do
      evalBlock setting body
      evalCheck setting kind condition) :=
    (inside.at_once fun _ => .round).comes (fun _ _ _ ran => .check ran) fun _ =>
      accounts_check setting kind condition
  induction bound generalizing done with
  | zero => exact .still fun _ => rfl
  | succ bound ih =>
      -- every further round begins at the point of the rounds once more
      rw [repeatRounds]
      refine round.bind fun again s s₂ ran count low high => ?_
      obtain ⟨_, s₁, first, checked⟩ := of_bind ran
      cases again with
      | true => exact .of_comes (.again first checked) (ih (done + 1) s₂ count low high)
      | false => exact absurd high (Nat.not_lt.2 low)

theorem Accounts.of_discard {setting : Setting σ} {focus : Focus} {p : Eval σ α}
    (accounted : Accounts setting focus (discard p)) : Accounts setting focus p := by
  intro s count low high
  refine accounted s count low ?_
  rw [discard_eq, bind_eq]
  cases ran : p s <;> rw [ran] at high <;> exact high

mutual

theorem accounts_stmt : (s : Stmt) → Accounts setting (.node (.stmt s)) (evalStmt setting s)
  | .assign target value span => by
      rw [evalStmt]
      refine .plain (n := .stmt (.assign target value span)) ?_ rfl
      refine (accounts_expr setting value).first fun v => .still ?_
      exact (still_emit _).bind fun _ _ => rfl
  | .call name args span => by
      rw [evalStmt]
      refine .call (n := .stmt (.call name args span)) (fun f => ?_) rfl
      exact (accounts_args setting args).quiet fun values =>
        (still_emit _).bind fun _ => still_invoke setting f values
  | .loop kind condition body otherwise span => by
      refine .of_discard ?_
      rw [discard_loop]
      refine .nested (n := .stmt (.loop kind condition body otherwise span)) ?_
      rw [← bind_assoc]
      refine .bind ?_ fun again s s₂ ran count low high => ?_
      · exact (accounts_tick setting _).comes (fun _ _ _ counted => .firstCheck counted) fun _ =>
          accounts_check setting kind condition
      · obtain ⟨_, s₁, counted, checked⟩ := of_bind ran
        cases again with
        | true =>
            have rounds := (accounts_rounds setting kind condition (accounts_block body)
              setting.rounds 0).quiet fun n => still_emit (.loopFinished kind n)
            exact .of_comes (.rounds counted checked) (rounds s₂ count low high)
        | false =>
            exact .of_comes (.instead counted checked)
              (accounts_otherwise otherwise s₂ count low high)
  | .branch b => by
      refine .of_discard ?_
      rw [discard_branch]
      refine .nested (n := .stmt (.branch b)) ?_
      exact (accounts_tick setting _).comes (fun _ _ _ counted => .branch counted) fun _ =>
        accounts_branch b

theorem accounts_block : (b : Block) → Accounts setting (.block b) (evalBlock setting b)
  | .mk stmts span => by
      rw [evalBlock]
      exact (accounts_stmts stmts).at_once fun _ => .block

theorem accounts_branch : (b : Branch) → Accounts setting (.branch b) (evalBranch setting b)
  | .mk condition body otherwise span => by
      rw [evalBranch]
      have checked : Accounts setting (.branch (.mk condition body otherwise span))
          (evalCondition setting "if" condition) :=
        (accounts_condition setting "if" condition).at_once fun _ => .condition
      refine checked.bind fun holds s s₁ ran count low high => ?_
      cases holds with
      | true => exact .of_comes (.holds ran) (accounts_block body s₁ count low high)
      | false => exact .of_comes (.fails ran) (accounts_otherwise otherwise s₁ count low high)

theorem accounts_otherwise : (o : Otherwise) →
    Accounts setting (.otherwise o) (evalOtherwise setting o)
  | .nothing => by
      rw [evalOtherwise]
      exact .still fun _ => rfl
  | .block body => by
      rw [evalOtherwise]
      exact (accounts_block body).at_once fun _ => .otherwiseBlock
  | .branch b => by
      rw [evalOtherwise]
      exact (accounts_branch b).at_once fun _ => .otherwiseBranch

theorem accounts_stmts : (ss : List Stmt) → Accounts setting (.stmts ss) (evalStmts setting ss)
  | [] => by
      rw [evalStmts]
      exact .still fun _ => rfl
  | s :: ss => by
      rw [evalStmts]
      have first : Accounts setting (.stmts (s :: ss)) (discard (evalStmt setting s)) :=
        ((accounts_stmt s).at_once fun _ => .stmt).quiet fun _ _ => rfl
      refine first.comes (fun _ s₀ s₁ ran => ?_) fun _ => accounts_stmts ss
      obtain ⟨v, s₂, succeeded, same⟩ := of_bind ran
      cases same
      exact .stmts succeeded

end

end

end TinyScript
