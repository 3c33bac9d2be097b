import TinyScript.Run.Evaluate

/-!
# Evaluations in lockstep

Evaluating a tree is built from a few kinds of steps: visiting a node, looking
up a name, binding one, calling a function, logging, failing, and the rounds
of a loop.  Two evaluations of the same tree, under different settings, are
built from the same steps.  What holds of every step and is kept when steps
are put together holds of every evaluation, so later proofs go along the steps
and never along the tree.
-/

namespace TinyScript

variable {σ τ α β : Type}

mutual

/-- The names that an expression looks up, each with the region of the node that does it. -/
def Expr.mentions : Expr → List (String × Span)
  | .const _ _ => []
  | .ident name span => [(name, span)]
  | .call callee args span => (callee.name, span) :: mentionsOf args
  | .additive left _ right _ => left.mentions ++ right.mentions
  | .comparison left _ right _ => left.mentions ++ right.mentions
  | .paren inner _ => inner.mentions

def mentionsOf : List Expr → List (String × Span)
  | [] => []
  | e :: es => e.mentions ++ mentionsOf es

end

mutual

def Stmt.mentions : Stmt → List (String × Span)
  | .assign _ value _ => value.mentions
  | .call callee args span => (callee.name, span) :: mentionsOf args
  | .loop _ condition body otherwise _ =>
      condition.mentions ++ (body.mentions ++ otherwise.mentions)
  | .branch b => b.mentions

def Block.mentions : Block → List (String × Span)
  | .mk stmts _ => stmtMentions stmts

def Branch.mentions : Branch → List (String × Span)
  | .mk condition body otherwise _ => condition.mentions ++ (body.mentions ++ otherwise.mentions)

def Otherwise.mentions : Otherwise → List (String × Span)
  | .nothing => []
  | .block body => body.mentions
  | .branch b => b.mentions

def stmtMentions : List Stmt → List (String × Span)
  | [] => []
  | s :: ss => s.mentions ++ stmtMentions ss

end

def Program.mentions (program : Program) : List (String × Span) := stmtMentions program.stmts

open Eval

/--
Two evaluations built from the same steps.  The optional region is that of the
node in evaluation; the names looked up there satisfy `reads`.  An error that
is raised by itself is never the one of a missing name, and every round of a
loop ends with visiting a node.
-/
inductive Lockstep (reads : String → Span → Prop) (a : Setting σ) (b : Setting τ) :
    Option Span → {α : Type} → Eval σ α → Eval τ α → Prop where
  | pure {own : Option Span} {α : Type} (x : α) :
      Lockstep reads a b own (pure x : Eval σ α) (pure x)
  | bind {own : Option Span} {α β : Type} {p : Eval σ α} {q : Eval τ α} {f : α → Eval σ β}
      {g : α → Eval τ β} (first : Lockstep reads a b own p q)
      (next : ∀ x, Lockstep reads a b own (f x) (g x)) :
      Lockstep reads a b own (p >>= f) (q >>= g)
  | fail {own : Option Span} {α : Type} {e : EvalError} (other : e.kind ≠ .undefinedVariable) :
      Lockstep reads a b own (fail e : Eval σ α) (fail e)
  | reject {own : Option Span} {α : Type} {e : EvalError} (span : Span)
      (other : e.kind ≠ .undefinedVariable) :
      Lockstep reads a b own (do modify (·.locate span); Eval.fail e : Eval σ α)
        (do modify (·.locate span); Eval.fail e)
  | lookup {span : Span} {name : String} (mentioned : reads name span) :
      Lockstep reads a b (some span) (lookup name) (lookup name)
  | emit {own : Option Span} (e : Event) : Lockstep reads a b own (emit e) (emit e)
  | assign {own : Option Span} (name : String) (value : Value) :
      Lockstep reads a b own (assign name value) (assign name value)
  | invoke {own : Option Span} (f : Native) (args : List Value) :
      Lockstep reads a b own (invoke a.host f args) (invoke b.host f args)
  | nested {own : Option Span} {α : Type} {span : Span} {p : Eval σ α} {q : Eval τ α}
      (inside : Lockstep reads a b (some span) p q) :
      Lockstep reads a b own (nested a.limits span p) (nested b.limits span q)
  | rounds {own : Option Span} {body : Eval σ Unit} {body' : Eval τ Unit} {span : Span}
      {guard : Eval σ Value} {guard' : Eval τ Value} {again : Value → Eval σ Bool}
      {again' : Value → Eval τ Bool} (runs : Lockstep reads a b own body body')
      (checks : Lockstep reads a b (some span) guard guard')
      (decides : ∀ v, Lockstep reads a b own (again v) (again' v)) :
      Lockstep reads a b own
        (repeatRounds (do body; let v ← Eval.nested a.limits span guard; again v) a.rounds 0)
        (repeatRounds (do body'; let v ← Eval.nested b.limits span guard'; again' v) b.rounds 0)

/-- A literal fails on its own account. -/
theorem literal_kind {literal : Literal} {e : EvalError} (failed : literal.value = .error e) :
    e.kind ≠ .undefinedVariable := by
  obtain ⟨kind, text⟩ := literal
  cases kind with
  | integer =>
      simp only [Literal.value] at failed
      split at failed <;> cases failed <;> nofun
  | float =>
      simp only [Literal.value] at failed
      split at failed <;> cases failed
      nofun
  | text =>
      simp only [Literal.value] at failed
      split at failed <;> cases failed
      nofun
  | boolean =>
      simp only [Literal.value] at failed
      split at failed
      · cases failed
      · split at failed <;> cases failed
        nofun
  | null => cases failed

theorem arithmetic_kind {op : BinOp} {left right : Value} {e : EvalError}
    (failed : op.arithmetic left right = .error e) : e.kind ≠ .undefinedVariable := by
  unfold BinOp.arithmetic at failed
  split at failed
  · cases failed
    nofun
  · split at failed
    · split at failed <;> cases failed
      nofun
    · cases failed
    · cases failed
    · cases failed
    · split at failed <;> cases failed
      nofun

theorem comparison_kind {op : BinOp} {left right : Value} {e : EvalError}
    (failed : op.comparison left right = .error e) : e.kind ≠ .undefinedVariable := by
  have ordered {op : BinOp} {wanted : Ordering}
      (failed : op.ordered wanted left right = .error e) : e.kind ≠ .undefinedVariable := by
    unfold BinOp.ordered at failed
    split at failed <;> cases failed
    nofun
  cases op with
  | eq => cases failed
  | notEq => cases failed
  | greater => exact ordered failed
  | less => exact ordered failed
  | _ =>
      cases failed
      nofun

section

variable {reads : String → Span → Prop} {a : Setting σ} {b : Setting τ} {own : Option Span}

namespace Lockstep

theorem ofExcept {x : Except EvalError α}
    (other : ∀ e, x = .error e → e.kind ≠ .undefinedVariable) :
    Lockstep reads a b own (ofExcept x : Eval σ α) (ofExcept x) := by
  cases x with
  | ok v => exact .pure v
  | error e => exact .fail (other e rfl)

theorem callee {name : String} {span : Span} (mentioned : reads name span) :
    Lockstep reads a b (some span) (callee name) (callee name) := by
  refine .bind (.lookup mentioned) fun v => ?_
  cases v with
  | native f => exact .pure f
  | _ => exact .fail (by nofun)

theorem condition (keyword : String) (span : Span) (value : Value) :
    Lockstep reads a b own (condition keyword span value) (condition keyword span value) := by
  unfold Eval.condition
  cases value.truth? with
  | some holds => exact .pure holds
  | none => exact .reject span (by nofun)

end Lockstep

/-! ## Evaluation of trees -/

/-- A computation visits one node, in both settings, and is in lockstep there. -/
def Visits (reads : String → Span → Prop) (a : Setting σ) (b : Setting τ) (span : Span)
    (p : Eval σ α) (q : Eval τ α) : Prop :=
  ∃ inside inside', p = nested a.limits span inside ∧ q = nested b.limits span inside' ∧
    Lockstep reads a b (some span) inside inside'

theorem Visits.lockstep {span : Span} {p : Eval σ α} {q : Eval τ α}
    (visits : Visits reads a b span p q) (own : Option Span) : Lockstep reads a b own p q := by
  obtain ⟨_, _, rfl, rfl, inside⟩ := visits
  exact .nested inside

mutual

theorem visits_expr : (e : Expr) → (∀ m ∈ e.mentions, reads m.1 m.2) →
    Visits reads a b e.span (evalExpr a e) (evalExpr b e)
  | .const literal span, _ => by
      rw [evalExpr, evalExpr]
      exact ⟨_, _, rfl, rfl, .ofExcept fun _ => literal_kind⟩
  | .ident name span, mentioned => by
      rw [evalExpr, evalExpr]
      exact ⟨_, _, rfl, rfl, .lookup (mentioned (name, span) (by simp [Expr.mentions]))⟩
  | .call callee args span, mentioned => by
      rw [Expr.mentions, List.forall_mem_cons] at mentioned
      rw [evalExpr, evalExpr]
      refine ⟨_, _, rfl, rfl, .bind (.callee mentioned.1) fun f => ?_⟩
      refine .bind (lockstep_args args mentioned.2 _) fun values => ?_
      exact .bind (.emit _) fun _ => .bind (.invoke f values) fun result => .pure _
  | .additive left op right span, mentioned => by
      rw [Expr.mentions, List.forall_mem_append] at mentioned
      rw [evalExpr, evalExpr]
      refine ⟨_, _, rfl, rfl, .bind ((visits_expr left mentioned.1).lockstep _) fun l => ?_⟩
      refine .bind ((visits_expr right mentioned.2).lockstep _) fun r => ?_
      exact .ofExcept fun _ => arithmetic_kind
  | .comparison left op right span, mentioned => by
      rw [Expr.mentions, List.forall_mem_append] at mentioned
      rw [evalExpr, evalExpr]
      refine ⟨_, _, rfl, rfl, .bind ((visits_expr left mentioned.1).lockstep _) fun l => ?_⟩
      refine .bind ((visits_expr right mentioned.2).lockstep _) fun r => ?_
      exact .ofExcept fun _ => comparison_kind
  | .paren inner span, mentioned => by
      rw [evalExpr, evalExpr]
      exact ⟨_, _, rfl, rfl, (visits_expr inner mentioned).lockstep _⟩

theorem lockstep_args : (es : List Expr) → (∀ m ∈ mentionsOf es, reads m.1 m.2) →
    ∀ own, Lockstep reads a b own (evalArgs a es) (evalArgs b es)
  | [], _, own => by
      rw [evalArgs, evalArgs]
      exact .pure []
  | e :: es, mentioned, own => by
      rw [mentionsOf, List.forall_mem_append] at mentioned
      rw [evalArgs, evalArgs]
      refine .bind ((visits_expr e mentioned.1).lockstep own) fun v => ?_
      exact .bind (lockstep_args es mentioned.2 own) fun vs => .pure _

end

theorem lockstep_condition {e : Expr} (mentioned : ∀ m ∈ e.mentions, reads m.1 m.2)
    (keyword : String) :
    Lockstep reads a b own (evalCondition a keyword e) (evalCondition b keyword e) :=
  .bind ((visits_expr e mentioned).lockstep own) fun v => .condition keyword e.span v

mutual

theorem lockstep_stmt : (s : Stmt) → (∀ m ∈ s.mentions, reads m.1 m.2) →
    ∀ own, Lockstep reads a b own (evalStmt a s) (evalStmt b s)
  | .assign target value span, mentioned, own => by
      rw [evalStmt, evalStmt]
      refine .nested (.bind ((visits_expr value mentioned).lockstep _) fun v => ?_)
      exact .bind (.emit _) fun _ => .bind (.assign target.name v) fun _ => .pure none
  | .call callee args span, mentioned, own => by
      rw [Stmt.mentions, List.forall_mem_cons] at mentioned
      rw [evalStmt, evalStmt]
      refine .nested (.bind (.callee mentioned.1) fun f => ?_)
      refine .bind (lockstep_args args mentioned.2 _) fun values => ?_
      exact .bind (.emit _) fun _ => .invoke f values
  | .loop kind condition body otherwise span, mentioned, own => by
      rw [Stmt.mentions, List.forall_mem_append, List.forall_mem_append] at mentioned
      obtain ⟨guard, inside, other⟩ := mentioned
      rw [evalStmt, evalStmt]
      refine .nested (.bind ?_ fun goesOn => ?_)
      · exact .bind (lockstep_condition guard kind.keyword) fun holds => .pure _
      · cases goesOn with
        | true =>
            refine .bind ?_ fun n => .bind (.emit _) fun _ => .pure none
            -- the check at the end of a round visits the node of the condition
            obtain ⟨_, _, same, same', visited⟩ := visits_expr condition guard
            simp only [evalCondition, bind_assoc]
            rw [same, same']
            refine .rounds (lockstep_block body inside _) visited fun v => ?_
            exact .bind (.condition kind.keyword condition.span v) fun holds => .pure _
        | false =>
            exact .bind (lockstep_otherwise otherwise other _) fun _ => .pure none
  | .branch branch, mentioned, own => by
      rw [evalStmt, evalStmt]
      exact .nested (.bind (lockstep_branch branch mentioned _) fun _ => .pure none)

theorem lockstep_block : (body : Block) → (∀ m ∈ body.mentions, reads m.1 m.2) →
    ∀ own, Lockstep reads a b own (evalBlock a body) (evalBlock b body)
  | .mk stmts span, mentioned, own => by
      rw [evalBlock, evalBlock]
      exact lockstep_stmts stmts mentioned own

theorem lockstep_branch : (branch : Branch) → (∀ m ∈ branch.mentions, reads m.1 m.2) →
    ∀ own, Lockstep reads a b own (evalBranch a branch) (evalBranch b branch)
  | .mk condition body otherwise span, mentioned, own => by
      rw [Branch.mentions, List.forall_mem_append, List.forall_mem_append] at mentioned
      obtain ⟨guard, inside, other⟩ := mentioned
      rw [evalBranch, evalBranch]
      refine .bind (lockstep_condition guard "if") fun holds => ?_
      cases holds with
      | true => exact lockstep_block body inside own
      | false => exact lockstep_otherwise otherwise other own

theorem lockstep_otherwise : (other : Otherwise) → (∀ m ∈ other.mentions, reads m.1 m.2) →
    ∀ own, Lockstep reads a b own (evalOtherwise a other) (evalOtherwise b other)
  | .nothing, _, own => by
      rw [evalOtherwise, evalOtherwise]
      exact .pure ()
  | .block body, mentioned, own => by
      rw [evalOtherwise, evalOtherwise]
      exact lockstep_block body mentioned own
  | .branch branch, mentioned, own => by
      rw [evalOtherwise, evalOtherwise]
      exact lockstep_branch branch mentioned own

theorem lockstep_stmts : (ss : List Stmt) → (∀ m ∈ stmtMentions ss, reads m.1 m.2) →
    ∀ own, Lockstep reads a b own (evalStmts a ss) (evalStmts b ss)
  | [], _, own => by
      rw [evalStmts, evalStmts]
      exact .pure ()
  | s :: ss, mentioned, own => by
      rw [stmtMentions, List.forall_mem_append] at mentioned
      rw [evalStmts, evalStmts]
      refine .bind ?_ fun _ => lockstep_stmts ss mentioned.2 own
      exact .bind (lockstep_stmt s mentioned.1 own) fun _ => .pure ()

end

end

end TinyScript
