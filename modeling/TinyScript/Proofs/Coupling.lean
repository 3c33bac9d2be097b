import TinyScript.Proofs.Deeds
import TinyScript.Proofs.ExpressionCost

/-!
# Runs on different levels

Two evaluations from states with equal stores, the second without a step limit
and with no fewer levels left than the first.  The first may be cut short by a
budget that is used up.  It may stop early, for want of rounds, if the second
is allowed more of them; then it has done the beginning of what the second does.
Otherwise both give the same value or the same error, leave equal stores behind,
and have done the same.  Which levels they are on, and how many nodes they have
visited, does not matter.
-/

namespace TinyScript

open Eval

variable {σ α β : Type}

/--
Two outcomes with the same value or related errors, equal stores, and levels as
they began; or both of them stopped for want of rounds.
-/
inductive Matching (E : EvalError → EvalError → Prop) (i j : Nat) :
    EStateM.Result Halt (State σ) α → EStateM.Result Halt (State σ) α → Prop where
  | ok {a : α} {s t : State σ} (store : s.store = t.store) (left : s.depth = i)
      (right : t.depth = j) : Matching E i j (.ok a s) (.ok a t)
  | error {e e' : EvalError} {s t : State σ} (errors : E e e') (store : s.store = t.store) :
      Matching E i j (.error (.failed e) s) (.error (.failed e') t)
  | stopped {s t : State σ} : Matching E i j (.error .unfinished s) (.error .unfinished t)

namespace Matching

variable {E : EvalError → EvalError → Prop} {i j : Nat}
  {r r' : EStateM.Result Halt (State σ) α}

theorem leaveLeft (span : Span) (matching : Matching E (i + 1) j r r') :
    Matching E i j (leave span r) r' := by
  cases matching with
  | ok store left right => exact .ok store (congrArg (· - 1) left) right
  | error errors store => exact .error errors store
  | stopped => exact .stopped

theorem leaveRight (span : Span) (matching : Matching E i (j + 1) r r') :
    Matching E i j r (leave span r') := by
  cases matching with
  | ok store left right => exact .ok store left (congrArg (· - 1) right)
  | error errors store => exact .error errors store
  | stopped => exact .stopped

end Matching

/-- What is done inside of a node that the budgets admit. -/
theorem History.inside_within {limits : Limits} {s : State σ} (room : s.depth < limits.maxDepth)
    (unspent : ∀ limit, limits.maxSteps = some limit → s.steps < limit) (h : History σ) :
    History.inside limits h s = h s.enter.count := by
  rw [inside, if_neg (Nat.not_le_of_lt room), after, tick_eq]
  cases limited : limits.maxSteps with
  | none => rfl
  | some limit =>
      have within : ¬ limit < s.enter.steps + 1 := Nat.not_lt.2 (unspent limit limited)
      dsimp only
      rw [if_neg within]

/-- Two errors: the same, or one condition that is not a boolean, under two keywords. -/
inductive Reworded (keyword keyword' : String) : EvalError → EvalError → Prop where
  | same (e : EvalError) : Reworded keyword keyword' e e
  | condition (v : Value) : Reworded keyword keyword'
      (.notBoolean ("`" ++ keyword ++ "` condition: " ++ v.notBoolean))
      (.notBoolean ("`" ++ keyword' ++ "` condition: " ++ v.notBoolean))

/--
An outcome that is cut short, by a budget that is used up, or for want of
rounds.  The latter is given by leave only, and then what is done is the
beginning of what the other computation does.
-/
inductive Short (small : Limits) (early : Prop) :
    EStateM.Result Halt (State σ) α → List Deed → List Deed → Prop where
  | budget {e : EvalError} {s : State σ} {mine theirs : List Deed} (usedUp : small.UsedUp e) :
      Short small early (.error (.failed e) s) mine theirs
  | rounds {s : State σ} {mine theirs : List Deed} (may : early) (begins : mine <+: theirs) :
      Short small early (.error .unfinished s) mine theirs

namespace Short

variable {small : Limits} {early : Prop} {r : EStateM.Result Halt (State σ) α}
  {mine theirs : List Deed}

theorem behind (front : List Deed) (short : Short small early r mine theirs) :
    Short small early r (front ++ mine) (front ++ theirs) := by
  cases short with
  | budget usedUp => exact .budget usedUp
  | rounds may begins => exact .rounds may ((List.prefix_append_right_inj front).2 begins)

theorem leave (span : Span) (short : Short small early r mine theirs) :
    Short small early (leave span r) mine theirs := by
  cases short with
  | budget usedUp => exact .budget usedUp
  | rounds may begins => exact .rounds may begins

end Short

/--
Two computations with their histories, the first within limits that may cut it
short.  From states with equal stores, on given levels, they have the same
outcome and do the same, unless the first is cut short.
-/
def Couples (small : Limits) (early : Prop) (E : EvalError → EvalError → Prop) (i j : Nat)
    (p : Eval σ α) (h : History σ) (q : Eval σ α) (k : History σ) : Prop :=
  ∀ s t : State σ, s.store = t.store → s.depth = i → t.depth = j →
    Short small early (p s) (h s) (k t) ∨ h s = k t ∧ Matching E i j (p s) (q t)

namespace Couples

variable {small : Limits} {early : Prop} {E : EvalError → EvalError → Prop} {i j : Nat}
  {p q : Eval σ α} {h k : History σ}

theorem mono {E' : EvalError → EvalError → Prop} (weaker : ∀ e e', E e e' → E' e e')
    (coupled : Couples small early E i j p h q k) : Couples small early E' i j p h q k := by
  intro s t store left right
  refine (coupled s t store left right).imp_right (And.imp_right fun matching => ?_)
  generalize p s = r at matching ⊢
  generalize q t = r' at matching ⊢
  cases matching with
  | ok store left right => exact .ok store left right
  | error errors store => exact .error (weaker _ _ errors) store
  | stopped => exact .stopped

theorem reworded {keyword keyword' : String} (coupled : Couples small early Eq i j p h q k) :
    Couples small early (Reworded keyword keyword') i j p h q k := by
  refine coupled.mono ?_
  rintro e _ rfl
  exact .same e

theorem bind {f g : α → Eval σ β} {h' k' : α → History σ}
    (first : Couples small early E i j p h q k)
    (next : ∀ a, Couples small early E i j (f a) (h' a) (g a) (k' a)) :
    Couples small early E i j (p >>= f) (h.andThen p h') (q >>= g) (k.andThen q k') := by
  intro s t store left right
  rw [bind_eq, bind_eq, History.andThen, History.andThen, History.after, History.after]
  rcases first s t store left right with short | ⟨deeds, matching⟩
  · generalize p s = r at short ⊢
    cases short with
    | budget usedUp => exact .inl (.budget usedUp)
    | rounds may begins =>
        dsimp only
        rw [List.append_nil]
        exact .inl (.rounds may (begins.trans (List.prefix_append _ _)))
  · rw [deeds]
    generalize p s = r at matching
    generalize q t = r' at matching
    cases matching with
    | ok store left right =>
        refine (next _ _ _ store left right).imp (·.behind _) fun same => ⟨?_, same.2⟩
        dsimp only
        rw [same.1]
    | error errors store => exact .inr ⟨rfl, .error errors store⟩
    | stopped => exact .inr ⟨rfl, .stopped⟩

/-- What follows and does nothing adds nothing to what is done. -/
theorem quiet {f g : α → Eval σ β} (first : Couples small early E i j p h q k)
    (next : ∀ a, Couples small early E i j (f a) .nothing (g a) .nothing) :
    Couples small early E i j (p >>= f) h (q >>= g) k := by
  rw [← h.andThen_nothing p, ← k.andThen_nothing q]
  exact first.bind next

/-- What does nothing adds nothing to what is done behind it. -/
theorem silent {f g : α → Eval σ β} {h' k' : α → History σ}
    (first : Couples small early E i j p .nothing q .nothing)
    (next : ∀ a, Couples small early E i j (f a) (h' a) (g a) (k' a)) :
    Couples small early E i j (p >>= f) (.after p h') (q >>= g) (.after q k') :=
  first.bind next

theorem step (effect : Store σ → Except EvalError α × Store σ) (deeds : List Deed)
    (does : ∀ s, ∃ s', p s = outcome (effect s.store).1 s' ∧ s'.store = (effect s.store).2 ∧
      s'.depth = s.depth) :
    Couples small early Eq i j p (fun _ => deeds) p (fun _ => deeds) := by
  intro s t store left right
  obtain ⟨s', ran, reached, depth⟩ := does s
  obtain ⟨t', ran', reached', depth'⟩ := does t
  rw [← store] at ran' reached'
  refine .inr ⟨rfl, ?_⟩
  rw [ran, ran']
  have stores : s'.store = t'.store := reached.trans reached'.symm
  cases (effect s.store).1 with
  | ok a => exact .ok stores (depth.trans left) (depth'.trans right)
  | error e => exact .error rfl stores

theorem pure (a : α) : Couples small early E i j (pure a : Eval σ α) .nothing (pure a) .nothing :=
  fun _ _ store left right => .inr ⟨rfl, .ok store left right⟩

theorem ofExcept (given : Except EvalError α) :
    Couples small early Eq i j (Eval.ofExcept given : Eval σ α) .nothing (Eval.ofExcept given)
      .nothing :=
  step (fun x => (given, x)) [] fun s => ⟨s, by cases given <;> rfl, rfl, rfl⟩

theorem lookup (name : String) :
    Couples small early Eq i j (lookup name : Eval σ Value) .nothing (lookup name) .nothing := by
  refine step (fun x => ((x.env.get? name).elim (.error (.undefinedVariable name)) .ok, x)) []
    fun s => ⟨s, ?_, rfl, rfl⟩
  rw [lookup_eq]
  change _ = outcome ((s.env.get? name).elim (.error (.undefinedVariable name)) .ok) s
  cases s.env.get? name <;> rfl

theorem callee (name : String) :
    Couples small early Eq i j (callee name : Eval σ Native) .nothing (callee name) .nothing := by
  refine (lookup name).quiet fun v => ?_
  cases v with
  | native f => exact pure f
  | _ => exact ofExcept (.error _)

theorem invoke (host : Host σ) (name : String) (f : Native) (args : List Value) :
    Couples small early Eq i j (do emit (.called name args.length); Eval.invoke host f args)
      (fun _ => [.calls name f args]) (do emit (.called name args.length); Eval.invoke host f args)
      (fun _ => [.calls name f args]) := by
  refine step (fun x => x.invoke host f args) _ fun s => ?_
  rw [bind_eq]
  change ∃ s', Eval.invoke host f args (s.log _) = _ ∧ _
  rw [invoke_eq]
  change ∃ s', Eval.ofExcept (s.store.invoke host f args).1 _ = _ ∧ _
  cases (s.store.invoke host f args).1 <;> exact ⟨_, rfl, rfl, rfl⟩

/-- A value is assigned, if there is one; the assignment is tried in any case. -/
theorem assign {p q : Eval σ Value} (target : String)
    (given : Couples small False Eq i j p h q k) :
    Couples small early Eq i j (p >>= fun v => do emit (.assigned target v); Eval.assign target v)
      (fun s => h s ++ [.assigns target (value? (p s))])
      (q >>= fun v => do emit (.assigned target v); Eval.assign target v)
      (fun s => k s ++ [.assigns target (value? (q s))]) := by
  intro s t store left right
  rw [bind_eq, bind_eq]
  dsimp only
  rcases given s t store left right with short | ⟨deeds, matching⟩
  · generalize p s = r at short ⊢
    cases short with
    | budget usedUp => exact .inl (.budget usedUp)
    | rounds may => exact may.elim
  · rw [deeds]
    generalize p s = r at matching ⊢
    generalize q t = r' at matching ⊢
    cases matching with
    | @ok v s t store left right =>
        refine .inr ⟨rfl, .ok ?_ left right⟩
        exact congrArg (·.assign target v) store
    | error errors store => exact .inr ⟨rfl, .error errors store⟩
    | stopped => exact .inr ⟨rfl, .stopped⟩

/-- A condition that is not a boolean raises an error that quotes the keyword. -/
theorem condition (keyword keyword' : String) (span : Span) (v : Value) :
    Couples small early (Reworded keyword keyword') i j
      (Eval.condition keyword span v : Eval σ Bool) .nothing (Eval.condition keyword' span v)
      .nothing := by
  intro s t store left right
  refine .inr ⟨rfl, ?_⟩
  unfold Eval.condition
  cases v.truth? with
  | some holds => exact .ok store left right
  | none => exact .error (.condition v) store

/-- A node of the first computation, which may cut it short, is a level of its own. -/
theorem nestedLeft (span : Span)
    (inside : i < small.maxDepth → Couples small early E (i + 1) j p h q k) :
    Couples small early E i j (Eval.nested small span p) (.inside small h) q k := by
  rintro s t store rfl right
  rcases small.admits_or_not s with full | ⟨room, limit, limited, spent⟩ | ⟨room, unspent⟩
  · rw [nested_eq, if_pos full]
    exact .inl (.budget .levels)
  · rw [nested_spent room limited spent]
    exact .inl (.budget (.visits limited))
  · rw [nested_within room unspent, History.inside_within room unspent]
    have entered : s.enter.count.store = t.store := store
    exact (inside room _ _ entered rfl right).imp (·.leave span)
      (And.imp_right (·.leaveLeft span))

/-- A node of the second computation, which has room for it, is a level of its own. -/
theorem nestedRight {large : Limits} (unlimited : large.maxSteps = none) (room : j < large.maxDepth)
    (span : Span) (inside : Couples small early E i (j + 1) p h q k) :
    Couples small early E i j p h (Eval.nested large span q) (.inside large k) := by
  rintro s t store left rfl
  have unspent : ∀ limit, large.maxSteps = some limit → t.steps < limit := by simp [unlimited]
  rw [nested_within room unspent, History.inside_within room unspent]
  have entered : s.store = t.enter.count.store := store
  exact (inside _ _ entered left rfl).imp_right (And.imp_right (·.leaveRight span))

/-- A node of both computations, the second of which has no fewer levels left. -/
theorem nested {large : Limits} (unlimited : large.maxSteps = none)
    (fits : small.maxDepth + j ≤ large.maxDepth + i) (span : Span)
    (inside : Couples small early E (i + 1) (j + 1) p h q k) :
    Couples small early E i j (Eval.nested small span p) (.inside small h)
      (Eval.nested large span q) (.inside large k) :=
  nestedLeft span fun room => nestedRight unlimited (by omega) span inside

theorem rounds {p q : Eval σ Bool} (each : Couples small early E i j p h q k)
    (event event' : Nat → Event) {n m : Nat} (le : n ≤ m) (may : n < m → early)
    (done done' : Nat) :
    Couples small early E i j (repeatRounds p n done >>= fun n => emit (event n)) (.rounds h p n)
      (repeatRounds q m done' >>= fun n => emit (event' n)) (.rounds k q m) := by
  induction n generalizing m done done' with
  | zero =>
      intro s t _ _ _
      cases m with
      | zero => exact .inr ⟨rfl, .stopped⟩
      | succ m => exact .inl (.rounds (may m.succ_pos) List.nil_prefix)
  | succ n ih =>
      obtain ⟨m, rfl⟩ : ∃ m', m = m' + 1 := ⟨m - 1, by omega⟩
      simp only [repeatRounds, bind_assoc, History.rounds]
      refine each.bind fun again => ?_
      cases again with
      | true => exact ih (by omega) (fun less => may (by omega)) (done + 1) (done' + 1)
      | false => exact fun _ _ store left right => .inr ⟨rfl, .ok store left right⟩

end Couples

/-! ## Trees -/

structure Wider (a b : Setting σ) : Prop where
  host : a.host = b.host
  unlimited : b.limits.maxSteps = none

/-- The second setting allows no fewer rounds; if it allows more, the first may stop early. -/
structure Longer (early : Prop) (a b : Setting σ) : Prop extends Wider a b where
  rounds : a.rounds ≤ b.rounds
  may : a.rounds < b.rounds → early

def Coupled (early : Prop) (a b : Setting σ) (p : Setting σ → Eval σ α)
    (h : Setting σ → History σ) : Prop :=
  ∀ i j, a.limits.maxDepth + j ≤ b.limits.maxDepth + i →
    Couples a.limits early Eq i j (p a) (h a) (p b) (h b)

section

variable {early : Prop} {a b : Setting σ}

mutual

theorem coupled_expr (wider : Wider a b) : (e : Expr) → Coupled early a b (evalExpr · e) e.deeds
  | .const literal span => by
      intro i j fits
      have inside := @Couples.ofExcept σ _ a.limits early (i + 1) (j + 1) literal.value
      simpa only [evalExpr, Expr.deeds, History.inside_nothing] using
        inside.nested wider.unlimited fits span
  | .ident name span => by
      intro i j fits
      have inside := @Couples.lookup σ a.limits early (i + 1) (j + 1) name
      simpa only [evalExpr, Expr.deeds, History.inside_nothing] using
        inside.nested wider.unlimited fits span
  | .call callee args span => by
      intro i j fits
      simp only [evalExpr_call, Expr.deeds]
      refine .nested wider.unlimited fits span ?_
      exact (coupled_call wider callee.name args _ _ (by omega)).quiet fun result => .pure _
  | .additive left op right span => by
      intro i j fits
      simp only [evalExpr, Expr.deeds]
      refine .nested wider.unlimited fits span ?_
      refine (coupled_expr wider left _ _ (by omega)).bind fun a => ?_
      exact (coupled_expr wider right _ _ (by omega)).quiet fun b => .ofExcept _
  | .comparison left op right span => by
      intro i j fits
      simp only [evalExpr, Expr.deeds]
      refine .nested wider.unlimited fits span ?_
      refine (coupled_expr wider left _ _ (by omega)).bind fun a => ?_
      exact (coupled_expr wider right _ _ (by omega)).quiet fun b => .ofExcept _
  | .paren inner span => by
      intro i j fits
      simp only [evalExpr, Expr.deeds]
      exact .nested wider.unlimited fits span (coupled_expr wider inner _ _ (by omega))

theorem coupled_args (wider : Wider a b) : (es : List Expr) →
    Coupled early a b (evalArgs · es) (deedsOf · es)
  | [] => by
      intro i j fits
      simp only [evalArgs, deedsOf]
      exact .pure []
  | e :: es => by
      intro i j fits
      simp only [evalArgs, deedsOf]
      refine (coupled_expr wider e _ _ fits).bind fun v => ?_
      exact (coupled_args wider es _ _ fits).quiet fun vs => .pure _

theorem coupled_call (wider : Wider a b) (name : String) (args : List Expr) :
    Coupled early a b (evalCall · name args)
      fun setting => callDeeds setting name args (deedsOf setting args) := by
  intro i j fits
  simp only [evalCall, callDeeds, ← wider.host]
  refine (Couples.callee name).silent fun f => ?_
  exact (coupled_args wider args _ _ fits).bind fun values => .invoke a.host name f values

end

theorem couples_condition (wider : Wider a b) (keyword keyword' : String) (e : Expr) {i j : Nat}
    (fits : a.limits.maxDepth + j ≤ b.limits.maxDepth + i) :
    Couples a.limits early (Reworded keyword keyword') i j (evalCondition a keyword e) (e.deeds a)
      (evalCondition b keyword' e) (e.deeds b) :=
  (coupled_expr wider e i j fits).reworded.quiet fun v => .condition _ _ _ v

theorem coupled_condition (wider : Wider a b) (keyword : String) (e : Expr) :
    Coupled early a b (evalCondition · keyword e) e.deeds := by
  intro i j fits
  refine (couples_condition wider keyword keyword e fits).mono fun e e' same => ?_
  cases same <;> rfl

theorem coupled_check (longer : Longer early a b) (kind : LoopKind) (condition : Expr) :
    Coupled early a b (evalCheck · kind condition) condition.deeds := fun i j fits =>
  (coupled_condition longer.toWider kind.keyword condition i j fits).quiet fun _ => .pure _

mutual

theorem coupled_stmt (longer : Longer early a b) : (s : Stmt) →
    Coupled early a b (fun setting => discard (evalStmt setting s)) s.deeds
  | .assign target value span => by
      intro i j fits
      simp only [discard_assign, Stmt.deeds]
      -- an expression has no rounds to run out of
      have given : Coupled False a b (evalExpr · value) value.deeds :=
        coupled_expr longer.toWider value
      exact .nested longer.unlimited fits span (.assign target.name (given _ _ (by omega)))
  | .call callee args span => by
      intro i j fits
      simp only [discard_call, Stmt.deeds]
      refine .nested longer.unlimited fits span ?_
      exact Couples.quiet (coupled_call longer.toWider callee.name args _ _ (by omega))
        fun result => .pure _
  | .loop kind condition body otherwise span => by
      intro i j fits
      simp only [discard_loop, Stmt.deeds]
      refine .nested longer.unlimited fits span ?_
      have check := coupled_check longer kind condition (i + 1) (j + 1) (by omega)
      refine check.bind fun again => ?_
      cases again with
      | true =>
          have inside := coupled_block longer body (i + 1) (j + 1) (by omega)
          exact .rounds (inside.bind fun _ => check) _ _ longer.rounds longer.may 0 0
      | false => exact coupled_otherwise longer otherwise _ _ (by omega)
  | .branch branch => by
      intro i j fits
      simp only [discard_branch, Stmt.deeds]
      have inside := coupled_branch longer branch (i + 1) (j + 1) (by omega)
      exact .nested longer.unlimited fits branch.span inside

theorem coupled_block (longer : Longer early a b) : (body : Block) →
    Coupled early a b (evalBlock · body) body.deeds
  | .mk stmts span => by
      intro i j fits
      simp only [evalBlock, Block.deeds]
      exact coupled_stmts longer stmts _ _ fits

theorem coupled_branch (longer : Longer early a b) : (branch : Branch) →
    Coupled early a b (evalBranch · branch) branch.deeds
  | .mk condition body otherwise span => by
      intro i j fits
      simp only [evalBranch, Branch.deeds]
      refine (coupled_condition longer.toWider "if" condition i j fits).bind fun holds => ?_
      cases holds with
      | true => exact coupled_block longer body _ _ fits
      | false => exact coupled_otherwise longer otherwise _ _ fits

theorem coupled_otherwise (longer : Longer early a b) : (other : Otherwise) →
    Coupled early a b (evalOtherwise · other) other.deeds
  | .nothing => by
      intro i j fits
      simp only [evalOtherwise, Otherwise.deeds]
      exact .pure ()
  | .block body => by
      intro i j fits
      simp only [evalOtherwise, Otherwise.deeds]
      exact coupled_block longer body _ _ fits
  | .branch branch => by
      intro i j fits
      simp only [evalOtherwise, Otherwise.deeds]
      exact coupled_branch longer branch _ _ fits

theorem coupled_stmts (longer : Longer early a b) : (ss : List Stmt) →
    Coupled early a b (evalStmts · ss) (stmtDeeds · ss)
  | [] => by
      intro i j fits
      simp only [evalStmts, stmtDeeds]
      exact .pure ()
  | s :: ss => by
      intro i j fits
      simp only [evalStmts, stmtDeeds]
      refine (coupled_stmt longer s _ _ fits).bind fun _ => ?_
      exact coupled_stmts longer ss _ _ fits

end

end

end TinyScript
