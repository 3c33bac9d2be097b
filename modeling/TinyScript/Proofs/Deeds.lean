import TinyScript.Proofs.SafeEvaluation
import TinyScript.Proofs.Sessions

/-!
# What a run does

The deeds of a run, in order: assignments that are tried, with the value of
their expression or without one, and functions that are called.  They are read
off the tree along the evaluation, apart from what they do to the state.  A
part of the tree adds its deeds only if what comes before it has succeeded and
the budgets admit its node.
-/

namespace TinyScript

open Eval

variable {σ α β : Type}

/-- One thing that a run does. -/
inductive Deed where
  /-- An assignment is tried: its expression gives a value, or fails. -/
  | assigns (target : String) (value : Option Value)
  /-- A function is called, by a name and with arguments. -/
  | calls (name : String) (f : Native) (args : List Value)
  deriving DecidableEq

/-- What is done from a state on. -/
abbrev History (σ : Type) : Type := State σ → List Deed

def Eval.value? : EStateM.Result Halt (State σ) α → Option α
  | .ok a _ => some a
  | .error _ _ => none

namespace History

def nothing : History σ := fun _ => []

/-- What is done behind a computation, if it succeeds. -/
def after (p : Eval σ α) (next : α → History σ) : History σ := fun s =>
  match p s with
  | .ok a s' => next a s'
  | .error _ _ => []

def andThen (first : History σ) (p : Eval σ α) (next : α → History σ) : History σ := fun s =>
  first s ++ after p next s

def inside (limits : Limits) (h : History σ) : History σ := fun s =>
  if limits.maxDepth ≤ s.depth then [] else after (tick limits) (fun _ => h) s.enter

def rounds (each : History σ) (round : Eval σ Bool) : Nat → History σ
  | 0 => nothing
  | bound + 1 => each.andThen round fun again => if again then rounds each round bound else nothing

@[simp]
theorem andThen_nothing (h : History σ) (p : Eval σ α) : h.andThen p (fun _ => nothing) = h := by
  funext s
  rw [andThen, after]
  cases p s <;> exact List.append_nil _

@[simp]
theorem inside_nothing (limits : Limits) : inside limits (nothing : History σ) = nothing := by
  funext s
  rw [inside, after]
  cases tick limits s.enter <;> exact ite_self []

end History

/-- The deeds of a call: those of its arguments, and the call of its function. -/
def callDeeds (setting : Setting σ) (name : String) (args : List Expr) (given : History σ) :
    History σ :=
  .after (callee name) fun f => given.andThen (evalArgs setting args) fun values _ =>
    [.calls name f values]

mutual

def Expr.deeds (setting : Setting σ) : Expr → History σ
  | .const _ _ => .nothing
  | .ident _ _ => .nothing
  | .call callee args _ =>
      .inside setting.limits (callDeeds setting callee.name args (deedsOf setting args))
  | .additive left _ right _ =>
      .inside setting.limits
        ((left.deeds setting).andThen (evalExpr setting left) fun _ => right.deeds setting)
  | .comparison left _ right _ =>
      .inside setting.limits
        ((left.deeds setting).andThen (evalExpr setting left) fun _ => right.deeds setting)
  | .paren inner _ => .inside setting.limits (inner.deeds setting)

def deedsOf (setting : Setting σ) : List Expr → History σ
  | [] => .nothing
  | e :: es => (e.deeds setting).andThen (evalExpr setting e) fun _ => deedsOf setting es

end

mutual

def Stmt.deeds (setting : Setting σ) : Stmt → History σ
  | .assign target value _ =>
      .inside setting.limits fun s =>
        value.deeds setting s ++ [.assigns target.name (value? (evalExpr setting value s))]
  | .call callee args _ =>
      .inside setting.limits (callDeeds setting callee.name args (deedsOf setting args))
  | .loop kind condition body otherwise _ =>
      let check := evalCheck setting kind condition
      .inside setting.limits ((condition.deeds setting).andThen check fun again =>
        if again then
          .rounds ((body.deeds setting).andThen (evalBlock setting body) fun _ =>
            condition.deeds setting) (evalBlock setting body >>= fun _ => check) setting.rounds
        else otherwise.deeds setting)
  | .branch b => .inside setting.limits (b.deeds setting)

def Block.deeds (setting : Setting σ) : Block → History σ
  | .mk stmts _ => stmtDeeds setting stmts

def Branch.deeds (setting : Setting σ) : Branch → History σ
  | .mk condition body otherwise _ =>
      (condition.deeds setting).andThen (evalCondition setting "if" condition) fun holds =>
        if holds then body.deeds setting else otherwise.deeds setting

def Otherwise.deeds (setting : Setting σ) : Otherwise → History σ
  | .nothing => .nothing
  | .block body => body.deeds setting
  | .branch b => b.deeds setting

def stmtDeeds (setting : Setting σ) : List Stmt → History σ
  | [] => .nothing
  | s :: ss =>
      (s.deeds setting).andThen (discard (evalStmt setting s)) fun _ => stmtDeeds setting ss

end

def Call.deeds (setting : Setting σ) : Call → History σ
  | .program p => fun s => stmtDeeds setting p.stmts (begin p s)
  | .block b => b.deeds setting
  | .stmt s => s.deeds setting
  | .expr e => e.deeds setting

/--
A computation does what a history says, and its value has a property.  Values
that are looked up are known, in an environment that binds known values only;
so are the values that are assigned and those that functions are called with.
-/
inductive Does (known : Nat → Prop) (setting : Setting σ) :
    {α : Type} → Eval σ α → History σ → (α → Prop) → Prop where
  | pure {α : Type} {post : α → Prop} {a : α} (holds : post a) :
      Does known setting (pure a) .nothing post
  | bind {α β : Type} {p : Eval σ α} {f : α → Eval σ β} {h : History σ} {k : α → History σ}
      {mid : α → Prop} {post : β → Prop} (first : Does known setting p h mid)
      (next : ∀ a, mid a → Does known setting (f a) (k a) post) :
      Does known setting (p >>= f) (h.andThen p k) post
  | fail {α : Type} {post : α → Prop} (e : EvalError) :
      Does known setting (fail e) .nothing post
  | reject {α : Type} {post : α → Prop} (span : Span) (e : EvalError) :
      Does known setting (do modify (·.locate span); Eval.fail e) .nothing post
  | lookup (name : String) : Does known setting (lookup name) .nothing (·.Known known)
  | assign {p : Eval σ Value} {h : History σ} (target : String)
      (given : Does known setting p h (·.Known known)) :
      Does known setting (p >>= fun v => do emit (.assigned target v); Eval.assign target v)
        (fun s => h s ++ [.assigns target (value? (p s))]) fun _ => True
  | call {f : Native} {args : List Value} (name : String)
      (isKnown : (Value.native f).Known known) (knownArgs : ∀ v ∈ args, v.Known known) :
      Does known setting (do emit (.called name args.length); invoke setting.host f args)
        (fun _ => [.calls name f args]) fun result => ∀ v ∈ result, v.Known known
  | nested {α : Type} {p : Eval σ α} {h : History σ} {post : α → Prop} (span : Span)
      (inside : Does known setting p h post) :
      Does known setting (nested setting.limits span p) (.inside setting.limits h) post
  | rounds {round : Eval σ Bool} {h : History σ} (kind : LoopKind)
      (each : Does known setting round h fun _ => True) :
      Does known setting (do
        let iterations ← repeatRounds round setting.rounds 0
        emit (.loopFinished kind iterations)) (.rounds h round setting.rounds) fun _ => True

namespace Does

variable {known : Nat → Prop} {setting : Setting σ} {p : Eval σ α} {h : History σ}
  {mid : α → Prop}

/-- What follows a computation and does nothing adds nothing to its history. -/
theorem quiet {f : α → Eval σ β} {post : β → Prop} (first : Does known setting p h mid)
    (next : ∀ a, mid a → Does known setting (f a) .nothing post) :
    Does known setting (p >>= f) h post := by
  rw [← h.andThen_nothing p]
  exact first.bind next

theorem map {post : β → Prop} (g : α → β) (first : Does known setting p h mid)
    (holds : ∀ a, mid a → post (g a)) : Does known setting (do return g (← p)) h post :=
  first.quiet fun a given => .pure (holds a given)

theorem leaf (span : Span) (inside : Does known setting p .nothing mid) :
    Does known setting (Eval.nested setting.limits span p) .nothing mid := by
  rw [← History.inside_nothing setting.limits]
  exact .nested span inside

theorem ofExcept {x : Except EvalError α} (value : ∀ a, x = .ok a → mid a) :
    Does known setting (ofExcept x) .nothing mid := by
  cases x with
  | ok a => exact .pure (value a rfl)
  | error e => exact .fail e

theorem callee (name : String) :
    Does known setting (callee name) .nothing fun f => (Value.native f).Known known := by
  refine (Does.lookup name).quiet fun v isKnown => ?_
  cases v with
  | native f => exact .pure isKnown
  | _ => exact .fail _

theorem condition (keyword : String) (span : Span) (v : Value) :
    Does known setting (condition keyword span v) .nothing fun _ => True := by
  unfold Eval.condition
  cases v.truth? with
  | some holds => exact .pure trivial
  | none => exact .reject span _

end Does

/-! ## Evaluation does the deeds of the tree -/

section

variable {known : Nat → Prop} {setting : Setting σ}

theorem does_call (name : String) {args : List Expr} {given : History σ}
    (evaluated : Does known setting (evalArgs setting args) given
      fun vs => ∀ v ∈ vs, v.Known known) :
    Does known setting (evalCall setting name args) (callDeeds setting name args given)
      fun result => ∀ v ∈ result, v.Known known :=
  (Does.callee name).bind fun _ isKnown => evaluated.bind fun _ knownArgs =>
    .call name isKnown knownArgs

mutual

theorem does_expr : (e : Expr) →
    Does known setting (evalExpr setting e) (e.deeds setting) (·.Known known)
  | .const literal span => by
      rw [evalExpr, Expr.deeds]
      exact .leaf span (.ofExcept fun v => literal_known)
  | .ident name span => by
      rw [evalExpr, Expr.deeds]
      exact .leaf span (.lookup name)
  | .call callee args span => by
      rw [evalExpr_call, Expr.deeds]
      refine .nested span ((does_call callee.name (does_args args)).map _ fun result isKnown => ?_)
      cases result with
      | none => trivial
      | some v => exact isKnown v rfl
  | .additive left op right span => by
      rw [evalExpr, Expr.deeds]
      refine .nested span ((does_expr left).bind fun a _ => (does_expr right).quiet fun b _ => ?_)
      exact .ofExcept fun v => arithmetic_known
  | .comparison left op right span => by
      rw [evalExpr, Expr.deeds]
      refine .nested span ((does_expr left).bind fun a _ => (does_expr right).quiet fun b _ => ?_)
      exact .ofExcept fun v => comparison_known
  | .paren inner span => by
      rw [evalExpr, Expr.deeds]
      exact .nested span (does_expr inner)

theorem does_args : (es : List Expr) →
    Does known setting (evalArgs setting es) (deedsOf setting es) fun vs => ∀ v ∈ vs, v.Known known
  | [] => by
      rw [evalArgs, deedsOf]
      exact .pure (by simp)
  | e :: es => by
      rw [evalArgs, deedsOf]
      refine (does_expr e).bind fun v isKnown => (does_args es).map _ fun vs knownArgs => ?_
      exact List.forall_mem_cons.2 ⟨isKnown, knownArgs⟩

end

theorem does_condition (keyword : String) (e : Expr) :
    Does known setting (evalCondition setting keyword e) (e.deeds setting) fun _ => True :=
  (does_expr e).quiet fun v _ => .condition keyword e.span v

theorem does_check (kind : LoopKind) (condition : Expr) :
    Does known setting (evalCheck setting kind condition) (condition.deeds setting)
      fun _ => True :=
  (does_condition kind.keyword condition).map _ fun _ _ => trivial

mutual

theorem does_stmt : (s : Stmt) →
    Does known setting (discard (evalStmt setting s)) (s.deeds setting) fun _ => True
  | .assign target value span => by
      rw [discard_assign, Stmt.deeds]
      exact .nested span (.assign target.name (does_expr value))
  | .call callee args span => by
      rw [discard_call, Stmt.deeds]
      exact .nested span ((does_call callee.name (does_args args)).map _ fun _ _ => trivial)
  | .loop kind condition body otherwise span => by
      rw [discard_loop, Stmt.deeds]
      refine .nested span ((does_check kind condition).bind fun again _ => ?_)
      cases again with
      | true =>
          exact .rounds kind ((does_block body).bind fun _ _ => does_check kind condition)
      | false => exact does_otherwise otherwise
  | .branch b => by
      rw [discard_branch, Stmt.deeds]
      exact .nested b.span (does_branch b)

theorem does_block : (b : Block) →
    Does known setting (evalBlock setting b) (b.deeds setting) fun _ => True
  | .mk stmts span => by
      rw [evalBlock, Block.deeds]
      exact does_stmts stmts

theorem does_branch : (b : Branch) →
    Does known setting (evalBranch setting b) (b.deeds setting) fun _ => True
  | .mk condition body otherwise span => by
      rw [evalBranch, Branch.deeds]
      refine (does_condition "if" condition).bind fun holds _ => ?_
      cases holds with
      | true => exact does_block body
      | false => exact does_otherwise otherwise

theorem does_otherwise : (o : Otherwise) →
    Does known setting (evalOtherwise setting o) (o.deeds setting) fun _ => True
  | .nothing => by
      rw [evalOtherwise, Otherwise.deeds]
      exact .pure trivial
  | .block body => by
      rw [evalOtherwise, Otherwise.deeds]
      exact does_block body
  | .branch b => by
      rw [evalOtherwise, Otherwise.deeds]
      exact does_branch b

theorem does_stmts : (ss : List Stmt) →
    Does known setting (evalStmts setting ss) (stmtDeeds setting ss) fun _ => True
  | [] => by
      rw [evalStmts, stmtDeeds]
      exact .pure trivial
  | s :: ss => by
      rw [evalStmts, stmtDeeds]
      exact (does_stmt s).bind fun _ _ => does_stmts ss

end

end

end TinyScript
