import Mathlib.Logic.Relation
import TinyScript.Proofs.Adequacy

/-!
# The counter of levels

A state counts the nodes that are being evaluated.  Every evaluation gives the
counter back as it found it, whether it succeeds, fails or is stopped.  So the
counter tells, at every point of an evaluation, how many nodes lie around this
point; and since a node is entered only with room on its level, the counter
never passes the limit.
-/

namespace TinyScript

open Eval

variable {σ α β : Type}

namespace Eval

/-- What an evaluation does in every state: it leaves the counter of levels as it was. -/
def Balanced (p : Eval σ α) : Prop := ∀ s : State σ, (final (p s)).depth = s.depth

theorem Balanced.ok {p : Eval σ α} (balanced : Balanced p) {s s' : State σ} {a : α}
    (ended : p s = .ok a s') : s'.depth = s.depth := by
  have kept := balanced s
  rwa [ended] at kept

theorem Balanced.bind {p : Eval σ α} {f : α → Eval σ β} (first : Balanced p)
    (next : ∀ a, Balanced (f a)) : Balanced (p >>= f) :=
  final_bind (R := fun s t => t.depth = s.depth) (fun before after => after.trans before) first next

theorem balanced_tick (limits : Limits) : Balanced (tick limits : Eval σ Unit) := by
  intro s
  rw [final_tick]
  rfl

/-- A node is left on every way out of it. -/
theorem Balanced.nested {p : Eval σ α} (inside : Balanced p) (limits : Limits) (span : Span) :
    Balanced (nested limits span p) := by
  intro s
  rw [nested_eq]
  split
  · rfl
  · have kept := (balanced_tick limits).bind (fun _ => inside) s.enter
    have left : (final (leave span ((tick limits >>= fun _ => p) s.enter))).depth =
        (final ((tick limits >>= fun _ => p) s.enter)).depth - 1 := by
      cases (tick limits >>= fun _ => p) s.enter <;> rfl
    rw [left, kept]
    exact Nat.add_sub_cancel s.depth 1

theorem Balanced.repeatRounds {round : Eval σ Bool} (each : Balanced round) (bound done : Nat) :
    Balanced (repeatRounds round bound done) :=
  final_repeatRounds (R := fun s t => t.depth = s.depth) (fun _ => rfl)
    (fun before after => after.trans before) each bound done

end Eval

theorem Lockstep.balanced {reads : String → Span → Prop} {setting other : Setting σ}
    {own : Option Span} {p q : Eval σ α} (built : Lockstep reads setting other own p q) :
    Balanced p := by
  induction built with
  | pure x => exact fun s => rfl
  | bind _ _ first next => exact first.bind next
  | fail _ => exact fun s => rfl
  | reject span _ => exact fun s => rfl
  | lookup _ =>
      intro s
      rw [final_lookup]
  | emit e => exact fun s => rfl
  | assign name value => exact fun s => rfl
  | invoke f args =>
      intro s
      rw [invoke_eq, final_ofExcept]
      rfl
  | nested _ inside => exact inside.nested setting.limits _
  | rounds _ _ _ runs checks decides =>
      refine Balanced.repeatRounds (runs.bind fun _ => ?_) setting.rounds 0
      exact (checks.nested setting.limits _).bind decides

/-- An evaluation under one setting, built from the steps of evaluation. -/
abbrev Built (setting : Setting σ) (p : Eval σ α) : Prop :=
  Lockstep (fun _ _ => True) setting setting none p p

section

variable (setting : Setting σ)

theorem built_expr (e : Expr) : Built setting (evalExpr setting e) :=
  (visits_expr e fun _ _ => trivial).lockstep none

theorem built_condition (keyword : String) (e : Expr) :
    Built setting (evalCondition setting keyword e) :=
  lockstep_condition (fun _ _ => trivial) keyword

theorem built_check (kind : LoopKind) (condition : Expr) :
    Built setting (evalCheck setting kind condition) :=
  .bind (built_condition setting kind.keyword condition) fun _ => .pure _

theorem built_stmt (s : Stmt) : Built setting (evalStmt setting s) :=
  lockstep_stmt s (fun _ _ => trivial) none

theorem built_block (b : Block) : Built setting (evalBlock setting b) :=
  lockstep_block b (fun _ _ => trivial) none

theorem built_stmts (ss : List Stmt) : Built setting (evalStmts setting ss) :=
  lockstep_stmts ss (fun _ _ => trivial) none

end

/-! ## The points of an evaluation -/

def Node.operands : Node → List Expr
  | .expr (.const _ _) => []
  | .expr (.ident _ _) => []
  | .expr (.call _ args _) => args
  | .expr (.additive left _ right _) => [left, right]
  | .expr (.comparison left _ right _) => [left, right]
  | .expr (.paren inner _) => [inner]
  | .stmt (.assign _ value _) => [value]
  | .stmt (.call _ args _) => args
  | .stmt (.loop _ _ _ _ _) => []
  | .stmt (.branch _) => []

def Node.prepare : Node → Eval σ (Option Native)
  | .expr (.call name _ _) => do return some (← callee name.name)
  | .stmt (.call name _ _) => do return some (← callee name.name)
  | _ => return none

/-- What an evaluation is about to do: visit a node, work inside of one, or go on between nodes. -/
inductive Focus where
  | node (n : Node)
  | inside (n : Node)
  | exprs (es : List Expr)
  | rounds (kind : LoopKind) (condition : Expr) (body : Block)
  | branch (b : Branch)
  | otherwise (o : Otherwise)
  | block (b : Block)
  | stmts (ss : List Stmt)

/--
An evaluation at one point, in a state, comes to another point in another
state.  Coming to a point behind a part of the tree means that this part was
evaluated and has succeeded.
-/
inductive Comes (setting : Setting σ) : Focus × State σ → Focus × State σ → Prop where
  | enter {n : Node} {s : State σ} (room : s.depth < setting.limits.maxDepth) :
      Comes setting (.node n, s) (.inside n, s.enter)
  | operands {n : Node} {s s₁ s₂ : State σ} {f : Option Native}
      (counted : tick setting.limits s = .ok () s₁) (prepared : n.prepare s₁ = .ok f s₂) :
      Comes setting (.inside n, s) (.exprs n.operands, s₂)
  | expr {e : Expr} {es : List Expr} {s : State σ} :
      Comes setting (.exprs (e :: es), s) (.node (.expr e), s)
  | exprs {e : Expr} {es : List Expr} {s s₁ : State σ} {v : Value}
      (evaluated : evalExpr setting e s = .ok v s₁) :
      Comes setting (.exprs (e :: es), s) (.exprs es, s₁)
  | firstCheck {kind : LoopKind} {condition : Expr} {body : Block} {otherwise : Otherwise}
      {span : Span} {s s₁ : State σ} (counted : tick setting.limits s = .ok () s₁) :
      Comes setting (.inside (.stmt (.loop kind condition body otherwise span)), s)
        (.node (.expr condition), s₁)
  | rounds {kind : LoopKind} {condition : Expr} {body : Block} {otherwise : Otherwise}
      {span : Span} {s s₁ s₂ : State σ} (counted : tick setting.limits s = .ok () s₁)
      (checked : evalCheck setting kind condition s₁ = .ok true s₂) :
      Comes setting (.inside (.stmt (.loop kind condition body otherwise span)), s)
        (.rounds kind condition body, s₂)
  | instead {kind : LoopKind} {condition : Expr} {body : Block} {otherwise : Otherwise}
      {span : Span} {s s₁ s₂ : State σ} (counted : tick setting.limits s = .ok () s₁)
      (checked : evalCheck setting kind condition s₁ = .ok false s₂) :
      Comes setting (.inside (.stmt (.loop kind condition body otherwise span)), s)
        (.otherwise otherwise, s₂)
  | round {kind : LoopKind} {condition : Expr} {body : Block} {s : State σ} :
      Comes setting (.rounds kind condition body, s) (.block body, s)
  | check {kind : LoopKind} {condition : Expr} {body : Block} {s s₁ : State σ}
      (ran : evalBlock setting body s = .ok () s₁) :
      Comes setting (.rounds kind condition body, s) (.node (.expr condition), s₁)
  | again {kind : LoopKind} {condition : Expr} {body : Block} {s s₁ s₂ : State σ}
      (ran : evalBlock setting body s = .ok () s₁)
      (checked : evalCheck setting kind condition s₁ = .ok true s₂) :
      Comes setting (.rounds kind condition body, s) (.rounds kind condition body, s₂)
  | branch {b : Branch} {s s₁ : State σ} (counted : tick setting.limits s = .ok () s₁) :
      Comes setting (.inside (.stmt (.branch b)), s) (.branch b, s₁)
  | condition {condition : Expr} {body : Block} {otherwise : Otherwise} {span : Span}
      {s : State σ} :
      Comes setting (.branch (.mk condition body otherwise span), s) (.node (.expr condition), s)
  | holds {condition : Expr} {body : Block} {otherwise : Otherwise} {span : Span}
      {s s₁ : State σ} (checked : evalCondition setting "if" condition s = .ok true s₁) :
      Comes setting (.branch (.mk condition body otherwise span), s) (.block body, s₁)
  | fails {condition : Expr} {body : Block} {otherwise : Otherwise} {span : Span}
      {s s₁ : State σ} (checked : evalCondition setting "if" condition s = .ok false s₁) :
      Comes setting (.branch (.mk condition body otherwise span), s) (.otherwise otherwise, s₁)
  | otherwiseBlock {b : Block} {s : State σ} :
      Comes setting (.otherwise (.block b), s) (.block b, s)
  | otherwiseBranch {b : Branch} {s : State σ} :
      Comes setting (.otherwise (.branch b), s) (.branch b, s)
  | block {ss : List Stmt} {span : Span} {s : State σ} :
      Comes setting (.block (.mk ss span), s) (.stmts ss, s)
  | stmt {stmt : Stmt} {ss : List Stmt} {s : State σ} :
      Comes setting (.stmts (stmt :: ss), s) (.node (.stmt stmt), s)
  | stmts {stmt : Stmt} {ss : List Stmt} {s s₁ : State σ} {v : Option Value}
      (ran : evalStmt setting stmt s = .ok v s₁) :
      Comes setting (.stmts (stmt :: ss), s) (.stmts ss, s₁)

theorem balanced_prepare (n : Node) : Balanced (n.prepare : Eval σ (Option Native)) := by
  have found (name : String) : Balanced (do return some (← callee name) : Eval σ _) := by
    refine Balanced.bind (fun s => ?_) fun _ _ => rfl
    rw [final_callee]
  unfold Node.prepare
  split
  · exact found _
  · exact found _
  · exact fun s => rfl

/-- Coming from one point to another, the counter stays or takes a level for which there is room. -/
theorem Comes.bounded {setting : Setting σ} {p q : Focus × State σ} (comes : Comes setting p q)
    (bounded : p.2.depth ≤ setting.limits.maxDepth) : q.2.depth ≤ setting.limits.maxDepth := by
  have ticked {s s₁ : State σ} (counted : tick setting.limits s = .ok () s₁) :
      s₁.depth = s.depth := (balanced_tick setting.limits).ok counted
  cases comes with
  | enter room => exact room
  | operands counted prepared =>
      rwa [(balanced_prepare _).ok prepared, ticked counted]
  | exprs evaluated => rwa [(built_expr setting _).balanced.ok evaluated]
  | firstCheck counted => rwa [ticked counted]
  | rounds counted checked => rwa [(built_check setting _ _).balanced.ok checked, ticked counted]
  | instead counted checked => rwa [(built_check setting _ _).balanced.ok checked, ticked counted]
  | check ran => rwa [(built_block setting _).balanced.ok ran]
  | again ran checked =>
      rwa [(built_check setting _ _).balanced.ok checked, (built_block setting _).balanced.ok ran]
  | branch counted => rwa [ticked counted]
  | holds checked => rwa [(built_condition setting _ _).balanced.ok checked]
  | fails checked => rwa [(built_condition setting _ _).balanced.ok checked]
  | stmts ran => rwa [(built_stmt setting _).balanced.ok ran]
  | expr => exact bounded
  | round => exact bounded
  | condition => exact bounded
  | otherwiseBlock => exact bounded
  | otherwiseBranch => exact bounded
  | block => exact bounded
  | stmt => exact bounded

/-- The counter does not pass the limit at any point that an evaluation comes to. -/
theorem depth_le_of_comes {setting : Setting σ} {p q : Focus × State σ}
    (comes : Relation.ReflTransGen (Comes setting) p q)
    (bounded : p.2.depth ≤ setting.limits.maxDepth) : q.2.depth ≤ setting.limits.maxDepth := by
  induction comes with
  | refl => exact bounded
  | tail _ last ih => exact last.bounded ih

end TinyScript
