import TinyScript.Proofs.AdequateBlame
import TinyScript.Proofs.ReportedPlaces

/-!
# The node that is blamed is one of the program

The rules that blame nodes are gone through along the tree: the node to which
an error is put down is always a node of the program that runs.  So the place
that a run reports is that of an expression or a statement of the script, and
it begins with a character that can be seen.
-/

namespace TinyScript

def Program.HasNode (program : Program) : Node → Prop
  | .expr e => e ∈ program.postorder
  | .stmt s => s ∈ allStatements program.stmts

namespace Blame

open Eval

variable {σ α β : Type} {good : Node → Prop}

/-- A rule blames only nodes of some kind. -/
def Blames (good : Node → Prop) (rule : Rule σ α) : Prop :=
  ∀ ⦃x : Progress σ⦄ ⦃raised : Raised⦄ ⦃y : Progress σ⦄, rule x (.error raised) y →
    good raised.node

theorem blames_gives (a : α) : Blames good (Gives a : Rule σ α) := by
  rintro x raised y ⟨impossible, _⟩
  cases impossible

/-- A node is blamed for the errors of its own step. -/
theorem blames_own {node : Node} (own : good node)
    (step : Store σ → Except EvalError α → Store σ → Prop) : Blames good (Own node step) := by
  rintro x raised y ⟨result, _, _, given⟩
  cases result with
  | ok a => cases given
  | error e =>
      cases given
      exact own

theorem Blames.andThen {first : Rule σ α} {next : α → Rule σ β} (before : Blames good first)
    (behind : ∀ a, Blames good (next a)) : Blames good (Then first next) := by
  intro x raised y run
  cases run with
  | failed ran => exact before ran
  | next ran continued => exact behind _ continued

/-- A node is blamed if it is refused, and else what is blamed inside of it. -/
theorem Blames.visits {limits : Limits} {level : Nat} {node : Node} {inside : Rule σ α}
    (within : Blames good inside) (own : good node) :
    Blames good (Visits limits level node inside) := by
  intro x raised y run
  cases run with
  | refused refused => exact own
  | admitted admitted ran => exact within ran

theorem Blames.repeats {round : Rule σ Bool} (each : Blames good round) :
    Blames good (Repeats round) := by
  intro x raised y run
  generalize given : (Except.error raised : Except Raised Unit) = result at run
  induction run with
  | failed ran =>
      cases given
      exact each ran
  | last ran => cases given
  | again ran repeated ih => exact ih given

theorem Blames.calls {host : Host σ} {node : Node} {name : String} {args : Rule σ (List Value)}
    (given : Blames good args) (own : good node) : Blames good (Calls host node name args) :=
  (blames_own own _).andThen fun _ => given.andThen fun _ => blames_own own _

section

variable (host : Host σ) (limits : Limits)

mutual

theorem blames_expr : (e : Expr) → (∀ n ∈ e.postorder, good (.expr n)) → ∀ level,
    Blames good (Evaluates host limits level e)
  | .const literal span, all, level => by
      have own := all _ (Expr.mem_postorder _)
      rw [Evaluates]
      exact (blames_own own _).visits own
  | .ident name span, all, level => by
      have own := all _ (Expr.mem_postorder _)
      rw [Evaluates]
      exact (blames_own own _).visits own
  | .call callee args span, all, level => by
      have own := all _ (Expr.mem_postorder _)
      rw [Expr.postorder, List.forall_mem_append] at all
      rw [Evaluates]
      refine Blames.visits (Blames.andThen ?_ fun value => blames_gives _) own
      exact (blames_args args all.1 (level + 1)).calls own
  | .additive left op right span, all, level => by
      have own := all _ (Expr.mem_postorder _)
      rw [Expr.postorder, List.forall_mem_append, List.forall_mem_append] at all
      rw [Evaluates]
      refine Blames.visits ((blames_expr left all.1 (level + 1)).andThen fun a => ?_) own
      exact (blames_expr right all.2.1 (level + 1)).andThen fun b => blames_own own _
  | .comparison left op right span, all, level => by
      have own := all _ (Expr.mem_postorder _)
      rw [Expr.postorder, List.forall_mem_append, List.forall_mem_append] at all
      rw [Evaluates]
      refine Blames.visits ((blames_expr left all.1 (level + 1)).andThen fun a => ?_) own
      exact (blames_expr right all.2.1 (level + 1)).andThen fun b => blames_own own _
  | .paren inner span, all, level => by
      have own := all _ (Expr.mem_postorder _)
      rw [Expr.postorder, List.forall_mem_append] at all
      rw [Evaluates]
      exact (blames_expr inner all.1 (level + 1)).visits own

theorem blames_args : (es : List Expr) → (∀ n ∈ postorderAll es, good (.expr n)) → ∀ level,
    Blames good (EvaluatesAll host limits level es)
  | [], all, level => by
      rw [EvaluatesAll]
      exact blames_gives []
  | e :: es, all, level => by
      rw [postorderAll, List.forall_mem_append] at all
      rw [EvaluatesAll]
      refine (blames_expr e all.1 level).andThen fun v => ?_
      exact (blames_args es all.2 level).andThen fun vs => blames_gives _

end

theorem blames_checks {condition : Expr} (all : ∀ n ∈ condition.postorder, good (.expr n))
    (level : Nat) (keyword : String) : Blames good (Checks host limits level keyword condition) :=
  (blames_expr host limits condition all level).andThen fun _ =>
    blames_own (all _ condition.mem_postorder) _

theorem blames_decides {condition : Expr} (all : ∀ n ∈ condition.postorder, good (.expr n))
    (level : Nat) (kind : LoopKind) : Blames good (Decides host limits level kind condition) :=
  (blames_checks host limits all level kind.keyword).andThen fun _ => blames_gives _

mutual

theorem blames_stmt : (s : Stmt) → (∀ n ∈ s.postorder, good (.expr n)) →
    (∀ t ∈ s.statements, good (.stmt t)) → ∀ level, Blames good (Executes host limits level s)
  | .assign target value span, exprs, stmts, level => by
      rw [Stmt.statements, List.forall_mem_singleton] at stmts
      rw [Executes]
      refine Blames.visits ((blames_expr host limits value exprs (level + 1)).andThen fun v => ?_)
        stmts
      exact blames_own stmts _
  | .call callee args span, exprs, stmts, level => by
      rw [Stmt.statements, List.forall_mem_singleton] at stmts
      rw [Executes]
      refine Blames.visits (Blames.andThen ?_ fun _ => blames_gives ()) stmts
      exact (blames_args host limits args exprs (level + 1)).calls stmts
  | .loop kind condition body otherwise span, exprs, stmts, level => by
      rw [Stmt.postorder, List.forall_mem_append, List.forall_mem_append] at exprs
      rw [Stmt.statements, List.forall_mem_cons, List.forall_mem_append] at stmts
      have check := blames_decides host limits exprs.1 (level + 1) kind
      rw [Executes]
      refine Blames.visits (check.andThen fun again => ?_) stmts.1
      cases again with
      | true =>
          have round := blames_block body exprs.2.1 stmts.2.1 (level + 1)
          exact (round.andThen fun _ => check).repeats
      | false => exact blames_otherwise otherwise exprs.2.2 stmts.2.2 (level + 1)
  | .branch b, exprs, stmts, level => by
      rw [Stmt.statements, List.forall_mem_cons] at stmts
      rw [Executes]
      exact (blames_branch b exprs stmts.2 (level + 1)).visits stmts.1

theorem blames_block : (b : Block) → (∀ n ∈ b.postorder, good (.expr n)) →
    (∀ t ∈ b.statements, good (.stmt t)) → ∀ level, Blames good (ExecutesBlock host limits level b)
  | .mk stmts span, exprs, inside, level => by
      rw [ExecutesBlock]
      exact blames_stmts stmts exprs inside level

theorem blames_branch : (b : Branch) → (∀ n ∈ b.postorder, good (.expr n)) →
    (∀ t ∈ b.statements, good (.stmt t)) → ∀ level,
    Blames good (ExecutesBranch host limits level b)
  | .mk condition body otherwise span, exprs, stmts, level => by
      rw [Branch.postorder, List.forall_mem_append, List.forall_mem_append] at exprs
      rw [Branch.statements, List.forall_mem_append] at stmts
      rw [ExecutesBranch]
      refine (blames_checks host limits exprs.1 level "if").andThen fun holds => ?_
      cases holds with
      | true => exact blames_block body exprs.2.1 stmts.1 level
      | false => exact blames_otherwise otherwise exprs.2.2 stmts.2 level

theorem blames_otherwise : (o : Otherwise) → (∀ n ∈ o.postorder, good (.expr n)) →
    (∀ t ∈ o.statements, good (.stmt t)) → ∀ level,
    Blames good (ExecutesOtherwise host limits level o)
  | .nothing, exprs, stmts, level => by
      rw [ExecutesOtherwise]
      exact blames_gives ()
  | .block body, exprs, stmts, level => by
      rw [ExecutesOtherwise]
      exact blames_block body exprs stmts level
  | .branch b, exprs, stmts, level => by
      rw [ExecutesOtherwise]
      exact blames_branch b exprs stmts level

theorem blames_stmts : (ss : List Stmt) → (∀ n ∈ stmtPostorder ss, good (.expr n)) →
    (∀ t ∈ allStatements ss, good (.stmt t)) → ∀ level,
    Blames good (ExecutesAll host limits level ss)
  | [], exprs, stmts, level => by
      rw [ExecutesAll]
      exact blames_gives ()
  | s :: ss, exprs, stmts, level => by
      rw [stmtPostorder, List.forall_mem_append] at exprs
      rw [allStatements, List.forall_mem_append] at stmts
      rw [ExecutesAll]
      exact (blames_stmt s exprs.1 stmts.1 level).andThen fun _ =>
        blames_stmts ss exprs.2 stmts.2 level

end

/-- The statements of a program blame nodes of the program. -/
theorem blames_program (program : Program) (level : Nat) :
    Blames program.HasNode (ExecutesAll host limits level program.stmts) :=
  blames_stmts host limits program.stmts (fun _ => id) (fun _ => id) level

end

variable {host : Host σ} {limits : Limits} {program : Program} {s s' : State σ}

/-- A run reports the place of the node that the rules blame, or none. -/
theorem executes_of_ends {result : Except EvalError Unit}
    (ended : Ends host limits program s result s') :
    ∃ given after, ExecutesAll host limits s.depth program.stmts s.progress given after ∧
      s'.errorSpan = place given := by
  obtain ⟨rounds, ended⟩ := ended
  rw [evalProgram_eq] at ended
  have ready : Ready s.depth s.progress (begin program s) := ⟨rfl, rfl, rfl⟩
  obtain ⟨s₁, stopped⟩ | ⟨given, y, derived, settled⟩ :=
    (attributes_stmts host limits program.stmts none s.depth).sound rounds ready
  · rw [stopped] at ended
    cases result <;> cases ended
  · obtain ⟨s₁, concluded, _, placed⟩ := settled.conclude
    obtain ⟨_, rfl⟩ := outcome_inj (concluded.symm.trans ended)
    exact ⟨given, y, derived, placed⟩

end Blame

variable {σ : Type} {host : Host σ} {limits : Limits} {program : Program} {s s' : State σ}
  {result : Except EvalError Unit} {span : Span}

/-- The place that a run reports is that of a node of the program. -/
theorem Ends.exists_node (ended : Ends host limits program s result s')
    (placed : s'.errorSpan = some span) : ∃ node, program.HasNode node ∧ node.span = span := by
  obtain ⟨given, _, derived, place⟩ := Blame.executes_of_ends ended
  rw [placed] at place
  cases given with
  | ok u => cases place
  | error raised =>
      cases place
      exact ⟨raised.node, Blame.blames_program host limits program s.depth derived, rfl⟩

/-- The place that the run of a script reports is that of a visible character. -/
theorem Ends.visible {source : Source} (parsed : source.parse = .ok program)
    (ended : Ends host limits program s result s') (placed : s'.errorSpan = some span) :
    Visible source.text.toList span.start := by
  obtain ⟨_, recognized, _⟩ := ofText_eq_ok_iff.1 (parse_eq_ok_iff.1 parsed)
  obtain ⟨node, inside, rfl⟩ := ended.exists_node placed
  cases node with
  | expr n => exact (located_of_recognize recognized n inside).1
  | stmt t => exact visible_of_recognize recognized t inside

end TinyScript
