import TinyScript.Proofs.Adequacy
import TinyScript.Proofs.Blame

/-!
# The place of an error is that of the node that raised it

Every level that an error passes on its way up offers its place, and the first
offer is kept.  So the place is right only if the node that raised the error
is the first to offer one, and if no place is known before.  Main statement:
whatever a run reports, the rules that blame nodes derive its result, and the
place is that of the node which they blame.
-/

namespace TinyScript

open Eval

variable {σ α β : Type}

def State.progress (s : State σ) : Blame.Progress σ := ⟨s.store, s.steps⟩

namespace Blame

/-- A state in which evaluation on a level may begin: no place of an error is known. -/
structure Ready (level : Nat) (x : Progress σ) (s : State σ) : Prop where
  progress : s.progress = x
  depth : s.depth = level
  clear : s.errorSpan = none

theorem Ready.log {level : Nat} {x : Progress σ} {s : State σ} (ready : Ready level x s)
    (e : Event) : Ready level x (s.log e) :=
  ⟨ready.progress, ready.depth, ready.clear⟩

/--
An outcome inside of a node, against a result of the rules.  An error has the
place of the node that raised it, or no place yet; then the node around it,
whose place is given, is the one.
-/
inductive Settles (own : Option Span) (level : Nat) :
    EStateM.Result Halt (State σ) α → Except Raised α → Progress σ → Prop where
  | ok {a : α} {s : State σ} {y : Progress σ} (ready : Ready level y s) :
      Settles own level (.ok a s) (.ok a) y
  | error {raised : Raised} {s : State σ} {y : Progress σ} (progress : s.progress = y)
      (placed : s.errorSpan.or own = some raised.node.span) :
      Settles own level (.error (.failed raised.error) s) (.error raised) y

/--
Evaluations, one for each bound on the rounds of loops, follow rules that
blame nodes.  Unless they are stopped for want of rounds, they end in ways
that the rules derive; and in all of these ways, once the bound is large
enough for the derivation.
-/
structure Attributes (own : Option Span) (level : Nat) (p : Nat → Eval σ α) (rules : Rule σ α) :
    Prop where
  sound (rounds : Nat) {x : Progress σ} {s : State σ} (ready : Ready level x s) :
    (∃ s', p rounds s = .error .unfinished s') ∨
      ∃ given y, rules x given y ∧ Settles own level (p rounds s) given y
  complete {x y : Progress σ} {given : Except Raised α} (derived : rules x given y) :
    ∃ least, ∀ rounds, least ≤ rounds → ∀ s, Ready level x s →
      Settles own level (p rounds s) given y

namespace Attributes

variable {own : Option Span} {level : Nat} {p : Nat → Eval σ α} {rules : Rule σ α}

theorem bind {f : Nat → α → Eval σ β} {next : α → Rule σ β}
    (first : Attributes own level p rules)
    (second : ∀ a, Attributes own level (fun rounds => f rounds a) (next a)) :
    Attributes own level (fun rounds => p rounds >>= f rounds) (Then rules next) where
  sound rounds x s ready := by
    rw [bind_eq]
    obtain ⟨s', stopped⟩ | ⟨given, y, derived, settled⟩ := first.sound rounds ready
    · rw [stopped]
      exact .inl ⟨s', rfl⟩
    · generalize p rounds s = r at settled
      cases settled with
      | ok ready' =>
          obtain stopped | ⟨given, z, derived', settled'⟩ := (second _).sound rounds ready'
          · exact .inl stopped
          · exact .inr ⟨given, z, .next derived derived', settled'⟩
      | error progress placed =>
          exact .inr ⟨_, y, .failed derived, .error progress placed⟩
  complete {x y given} derived := by
    cases derived with
    | failed ran =>
        obtain ⟨least, ends⟩ := first.complete ran
        refine ⟨least, fun rounds enough s ready => ?_⟩
        have settled := ends rounds enough s ready
        rw [bind_eq]
        generalize p rounds s = r at settled
        cases settled with
        | error progress placed => exact .error progress placed
    | next ran continued =>
        obtain ⟨least, ends⟩ := first.complete ran
        obtain ⟨least', ends'⟩ := (second _).complete continued
        refine ⟨max least least', fun rounds enough s ready => ?_⟩
        have settled := ends rounds (by omega) s ready
        rw [bind_eq]
        generalize p rounds s = r at settled
        cases settled with
        | ok ready' => exact ends' rounds (by omega) _ ready'

theorem gives (a : α) : Attributes own level (fun _ => (pure a : Eval σ α)) (Gives a) where
  sound _ _ _ ready := .inr ⟨_, _, ⟨rfl, rfl⟩, .ok ready⟩
  complete := by
    rintro x _ _ ⟨rfl, rfl⟩
    exact ⟨0, fun _ _ s ready => .ok ready⟩

theorem logged (e : Event) (attributed : Attributes own level p rules) :
    Attributes own level (fun rounds => emit e >>= fun _ => p rounds) rules where
  sound rounds x s ready := attributed.sound rounds (ready.log e)
  complete derived := by
    obtain ⟨least, ends⟩ := attributed.complete derived
    exact ⟨least, fun rounds enough s ready => ends rounds enough (s.log e) (ready.log e)⟩

end Attributes

/-- A step that always ends, and leaves the counters and the place of an error alone. -/
def Steady (p : Eval σ α) : Prop :=
  ∀ s : State σ, ∃ result s', p s = outcome result s' ∧ s'.depth = s.depth ∧
    s'.steps = s.steps ∧ s'.errorSpan = s.errorSpan

theorem steady_ofExcept (given : Except EvalError α) : Steady (ofExcept given : Eval σ α) := by
  intro s
  refine ⟨given, s, ?_, rfl, rfl, rfl⟩
  cases given <;> rfl

theorem steady_lookup (name : String) : Steady (lookup name : Eval σ Value) := by
  intro s
  rw [lookup_eq]
  cases s.env.get? name with
  | some value => exact ⟨.ok value, s, rfl, rfl, rfl, rfl⟩
  | none => exact ⟨.error _, s, rfl, rfl, rfl, rfl⟩

theorem steady_callee (name : String) : Steady (callee name : Eval σ Native) := by
  intro s
  rw [callee, bind_eq, lookup_eq]
  cases s.env.get? name with
  | some value =>
      cases value with
      | native f => exact ⟨.ok f, s, rfl, rfl, rfl, rfl⟩
      | _ => exact ⟨.error _, s, rfl, rfl, rfl, rfl⟩
  | none => exact ⟨.error _, s, rfl, rfl, rfl, rfl⟩

theorem steady_invoke (host : Host σ) (f : Native) (args : List Value) :
    Steady (invoke host f args) := by
  intro s
  rw [invoke_eq]
  exact steady_ofExcept _ (s.withStore _)

theorem settles_own {node : Node} {level : Nat} {s s' : State σ} {x : Progress σ}
    (ready : Ready level x s) (depth : s'.depth = s.depth) (clear : s'.errorSpan = s.errorSpan)
    (result : Except EvalError α) :
    Settles (some node.span) level (outcome result s') (result.mapError (⟨·, node⟩))
      s'.progress := by
  rw [ready.depth] at depth
  rw [ready.clear] at clear
  cases result with
  | ok a => exact .ok ⟨rfl, depth, clear⟩
  | error e =>
      refine @Settles.error _ _ _ _ ⟨e, node⟩ _ _ rfl ?_
      rw [clear, Option.none_or]

/-- A step on the store is the own step of the node around it. -/
theorem Attributes.own {p : Eval σ α} {step : Store σ → Except EvalError α → Store σ → Prop}
    (steady : Steady p) (implemented : ∀ limits, Implements limits 0 (fun _ => p) step)
    (node : Node) (level : Nat) :
    Attributes (some node.span) level (fun _ => p) (Own node step) where
  sound rounds x s ready := by
    obtain ⟨result, s', ran, depth, steps, clear⟩ := steady s
    obtain ⟨_, stepped⟩ :=
      @(implemented ⟨none, s.depth⟩).sound rounds s s' result (Nat.le_refl _) ran
    refine .inr ⟨_, s'.progress, ⟨result, ?_, ?_, rfl⟩, ran ▸ settles_own ready depth clear result⟩
    · rw [← ready.progress]
      exact stepped
    · rw [← ready.progress]
      exact steps.symm
  complete := by
    rintro x y given ⟨result, stepped, counted, rfl⟩
    obtain ⟨least, ends⟩ := (implemented ⟨none, level⟩).complete stepped
    refine ⟨least, fun rounds enough s ready => ?_⟩
    have store : s.store = x.store := congrArg Progress.store ready.progress
    obtain ⟨s₁, ran₁, after⟩ := ends rounds enough s store (Nat.le_of_eq ready.depth)
    obtain ⟨result', s', ran, depth, steps, clear⟩ := steady s
    obtain ⟨rfl, rfl⟩ := outcome_inj (ran₁.symm.trans ran)
    have reached : s₁.progress = y := by
      have begun : s.steps = x.steps := congrArg Progress.steps ready.progress
      cases y
      cases after
      cases (steps.trans begun).trans counted
      rfl
    rw [ran, ← reached]
    exact settles_own ready depth clear result

section

variable {limits : Limits} {own : Option Span} {level : Nat}

theorem refuses_or_admits (limits : Limits) (level : Nat) (x : Progress σ) :
    (∃ e y, Refuses limits level x e y) ∨ Admits limits level x := by
  by_cases full : limits.maxDepth ≤ level
  · exact .inl ⟨_, x, .depth full⟩
  · have room : level < limits.maxDepth := Nat.lt_of_not_le full
    cases limited : limits.maxSteps with
    | none =>
        refine .inr ⟨room, fun limit same => ?_⟩
        rw [limited] at same
        cases same
    | some limit =>
        by_cases spent : limit ≤ x.steps
        · exact .inl ⟨_, x.count, .steps room limited spent⟩
        · refine .inr ⟨room, fun limit' same => ?_⟩
          rw [limited] at same
          cases same
          exact Nat.lt_of_not_le spent

/-- A node that is admitted is entered, counted and left. -/
theorem nested_admitted {x : Progress σ} {s : State σ} (ready : Ready level x s)
    (admitted : Admits limits level x) (span : Span) (p : Eval σ α) :
    nested limits span p s = leave span (p s.enter.count) := by
  obtain ⟨rfl, rfl, _⟩ := ready
  exact nested_within admitted.room admitted.unspent span p

theorem Ready.enter {x : Progress σ} {s : State σ} (ready : Ready level x s) :
    Ready (level + 1) x.count s.enter.count := by
  obtain ⟨rfl, rfl, clear⟩ := ready
  exact ⟨rfl, rfl, clear⟩

/-- An error that is located at a node is raised there. -/
theorem Ready.raises {x : Progress σ} {s : State σ} (ready : Ready level x s) (e : EvalError)
    (node : Node) :
    Settles own level (.error (.failed e) (s.locate node.span) : EStateM.Result Halt (State σ) α)
      (.error ⟨e, node⟩) x := by
  refine @Settles.error _ _ _ _ ⟨e, node⟩ _ _ ready.progress ?_
  change (s.errorSpan.or (some node.span)).or own = some node.span
  rw [ready.clear, Option.none_or, Option.some_or]

/-- A node that is refused gives its own place to the error. -/
theorem settles_refused {x y : Progress σ} {e : EvalError} {s : State σ} (ready : Ready level x s)
    (refused : Refuses limits level x e y) (node : Node) (p : Eval σ α) :
    Settles own level (nested limits node.span p s) (.error ⟨e, node⟩) y := by
  cases refused with
  | depth full =>
      rw [nested_eq, ready.depth, if_pos full]
      exact ready.raises _ node
  | @steps limit room limited spent =>
      obtain ⟨rfl, rfl, clear⟩ := ready
      have counted : Ready s.depth s.progress.count s.count := ⟨rfl, rfl, clear⟩
      rw [nested_spent room limited spent]
      exact counted.raises _ node

/-- Leaving a node gives its place to an error that has none. -/
theorem Settles.leave {span : Span} {r : EStateM.Result Halt (State σ) α}
    {given : Except Raised α} {y : Progress σ}
    (settled : Settles (some span) (level + 1) r given y) :
    Settles own level (leave span r) given y := by
  cases settled with
  | ok ready =>
      obtain ⟨progress, depth, clear⟩ := ready
      exact .ok ⟨progress, by simp [depth], clear⟩
  | @error raised s _ progress placed =>
      refine .error progress ?_
      -- a place that is known already wins over that of the node
      change (s.errorSpan.or (some span)).or own = some raised.node.span
      rw [placed, Option.some_or]

theorem Attributes.visits (node : Node) {p : Nat → Eval σ α} {rules : Rule σ α}
    (inside : Attributes (some node.span) (level + 1) p rules) :
    Attributes own level (fun rounds => nested limits node.span (p rounds))
      (Visits limits level node rules) where
  sound rounds x s ready := by
    obtain ⟨e, y, refused⟩ | admitted := refuses_or_admits limits level x
    · exact .inr ⟨_, y, .refused refused, settles_refused ready refused node _⟩
    · rw [nested_admitted ready admitted]
      obtain ⟨s', stopped⟩ | ⟨given, y, derived, settled⟩ := inside.sound rounds ready.enter
      · rw [stopped]
        exact .inl ⟨_, rfl⟩
      · exact .inr ⟨given, y, .admitted admitted derived, settled.leave⟩
  complete derived := by
    cases derived with
    | refused refused => exact ⟨0, fun _ _ s ready => settles_refused ready refused node _⟩
    | admitted admitted ran =>
        obtain ⟨least, ends⟩ := inside.complete ran
        refine ⟨least, fun rounds enough s ready => ?_⟩
        rw [nested_admitted ready admitted]
        exact (ends rounds enough _ ready.enter).leave

theorem settles_rounds {round : Nat → Eval σ Bool} {rules : Rule σ Bool}
    (each : Attributes own level round rules) (event : Nat → Event) (rounds bound done : Nat)
    {x : Progress σ} {s : State σ} (ready : Ready level x s) :
    (∃ s', (repeatRounds (round rounds) bound done >>= fun n => emit (event n)) s =
      .error .unfinished s') ∨
    ∃ given y, Repeats rules x given y ∧ Settles own level
      ((repeatRounds (round rounds) bound done >>= fun n => emit (event n)) s) given y := by
  induction bound generalizing done x s with
  | zero => exact .inl ⟨s, rfl⟩
  | succ bound ih =>
      rw [repeatRounds, bind_assoc, bind_eq]
      obtain ⟨s', stopped⟩ | ⟨given, y, derived, settled⟩ := each.sound rounds ready
      · rw [stopped]
        exact .inl ⟨s', rfl⟩
      · generalize round rounds s = r at settled
        cases settled with
        | @ok again s₁ _ ready' =>
            cases again with
            | true =>
                obtain stopped | ⟨given, z, derived', settled'⟩ := ih (done + 1) ready'
                · exact .inl stopped
                · exact .inr ⟨given, z, .again derived derived', settled'⟩
            | false =>
                exact .inr ⟨_, y, .last derived, .ok (ready'.log _)⟩
        | error progress placed =>
            exact .inr ⟨_, y, .failed derived, .error progress placed⟩

theorem rounds_settle {round : Nat → Eval σ Bool} {rules : Rule σ Bool}
    (each : Attributes own level round rules) (event : Nat → Event) {x y : Progress σ}
    {given : Except Raised Unit} (derived : Repeats rules x given y) :
    ∃ least, ∀ rounds bound done, least ≤ rounds → least ≤ bound → ∀ s, Ready level x s →
      Settles own level
        ((repeatRounds (round rounds) bound done >>= fun n => emit (event n)) s) given y := by
  -- a round takes one from the bound, and each derived round needs its own number of inner rounds
  induction derived with
  | failed ran =>
      obtain ⟨least, ends⟩ := each.complete ran
      refine ⟨least + 1, fun rounds bound done enough bounded s ready => ?_⟩
      obtain ⟨bound, rfl⟩ : ∃ n, bound = n + 1 := ⟨bound - 1, by omega⟩
      have settled := ends rounds (by omega) s ready
      rw [repeatRounds, bind_assoc, bind_eq]
      generalize round rounds s = r at settled
      cases settled with
      | error progress placed => exact .error progress placed
  | last ran =>
      obtain ⟨least, ends⟩ := each.complete ran
      refine ⟨least + 1, fun rounds bound done enough bounded s ready => ?_⟩
      obtain ⟨bound, rfl⟩ : ∃ n, bound = n + 1 := ⟨bound - 1, by omega⟩
      have settled := ends rounds (by omega) s ready
      rw [repeatRounds, bind_assoc, bind_eq]
      generalize round rounds s = r at settled
      cases settled with
      | ok ready' => exact .ok (ready'.log _)
  | again ran _ ih =>
      obtain ⟨least, ends⟩ := each.complete ran
      obtain ⟨least', ends'⟩ := ih
      refine ⟨max least least' + 1, fun rounds bound done enough bounded s ready => ?_⟩
      obtain ⟨bound, rfl⟩ : ∃ n, bound = n + 1 := ⟨bound - 1, by omega⟩
      have settled := ends rounds (by omega) s ready
      rw [repeatRounds, bind_assoc, bind_eq]
      generalize round rounds s = r at settled
      cases settled with
      | ok ready' => exact ends' rounds bound (done + 1) (by omega) (by omega) _ ready'

theorem Attributes.rounds {round : Nat → Eval σ Bool} {rules : Rule σ Bool}
    (each : Attributes own level round rules) (event : Nat → Event) :
    Attributes own level (fun rounds => repeatRounds (round rounds) rounds 0 >>= fun n =>
      emit (event n)) (Repeats rules) where
  sound rounds _ _ ready := settles_rounds each event rounds rounds 0 ready
  complete derived := by
    obtain ⟨least, ends⟩ := rounds_settle each event derived
    exact ⟨least, fun rounds enough => ends rounds rounds 0 enough enough⟩

end

section

variable (host : Host σ) (limits : Limits)

theorem attributes_ofExcept {rule : Except EvalError α → Prop} {given : Except EvalError α}
    (same : ∀ result, given = result ↔ rule result) (node : Node) (level : Nat) :
    Attributes (some node.span) level (fun _ => (ofExcept given : Eval σ α))
      (Own node fun x result y => rule result ∧ x = y) := by
  refine .own (steady_ofExcept given) (fun limits => ?_) node level
  refine (implements_ofExcept 0 given).congr fun x result y => ?_
  rw [same]

theorem attributes_call (node : Node) {level : Nat} (name : String) {args : List Expr}
    (given : Attributes (some node.span) level (fun rounds => evalArgs ⟨host, limits, rounds⟩ args)
      (EvaluatesAll host limits level args)) :
    Attributes (some node.span) level (fun rounds => evalCall ⟨host, limits, rounds⟩ name args)
      (Calls host node name (EvaluatesAll host limits level args)) := by
  refine .bind ?_ fun f => given.bind fun values => .logged _ ?_
  · exact .own (steady_callee name) (fun _ => implements_callee 0 name) node level
  · exact .own (steady_invoke host f values) (fun _ => implements_invoke 0 f values) node level

mutual

theorem attributes_expr : (e : Expr) → ∀ (own : Option Span) (level : Nat),
    Attributes own level (fun rounds => evalExpr ⟨host, limits, rounds⟩ e)
      (Evaluates host limits level e)
  | .const literal span, own, level => by
      simp only [evalExpr, Evaluates]
      exact .visits (.expr (.const literal span)) (attributes_ofExcept (fun _ => Iff.rfl) _ _)
  | .ident name span, own, level => by
      simp only [evalExpr, Evaluates]
      refine .visits (.expr (.ident name span)) ?_
      exact .own (steady_lookup name) (fun _ => implements_lookup 0 name) _ _
  | .call callee args span, own, level => by
      simp only [evalExpr_call, Evaluates]
      refine .visits (.expr (.call callee args span)) ?_
      have called := attributes_call host limits (.expr (.call callee args span)) callee.name
        (attributes_args args _ (level + 1))
      exact called.bind fun value => .gives _
  | .additive left op right span, own, level => by
      simp only [evalExpr, Evaluates]
      refine .visits (.expr (.additive left op right span)) ?_
      refine (attributes_expr left _ _).bind fun a => (attributes_expr right _ _).bind fun b => ?_
      exact attributes_ofExcept (fun _ => arithmetic_iff.symm) _ _
  | .comparison left op right span, own, level => by
      simp only [evalExpr, Evaluates]
      refine .visits (.expr (.comparison left op right span)) ?_
      refine (attributes_expr left _ _).bind fun a => (attributes_expr right _ _).bind fun b => ?_
      exact attributes_ofExcept (fun _ => comparison_iff.symm) _ _
  | .paren inner span, own, level => by
      simp only [evalExpr, Evaluates]
      exact .visits (.expr (.paren inner span)) (attributes_expr inner _ _)

theorem attributes_args : (es : List Expr) → ∀ (own : Option Span) (level : Nat),
    Attributes own level (fun rounds => evalArgs ⟨host, limits, rounds⟩ es)
      (EvaluatesAll host limits level es)
  | [], own, level => by
      simp only [evalArgs, EvaluatesAll]
      exact .gives []
  | e :: es, own, level => by
      simp only [evalArgs, EvaluatesAll]
      exact (attributes_expr e _ _).bind fun v => (attributes_args es _ _).bind fun vs => .gives _

end

theorem attributes_assign (name : String) (v : Value) (node : Node) (level : Nat) :
    Attributes (some node.span) level (fun _ => (Eval.assign name v : Eval σ Unit))
      (Own node fun x result y => result = .ok () ∧ x.assign name v = y) := by
  have implemented (limits : Limits) :
      Implements limits 0 (fun _ => (Eval.assign name v : Eval σ Unit)) fun x result y =>
        (.ok (), x.assign name v) = (result, y) := .step _ fun _ s => ⟨_, rfl, rfl, rfl⟩
  have steady : Steady (Eval.assign name v : Eval σ Unit) :=
    fun s => ⟨.ok (), _, rfl, rfl, rfl, rfl⟩
  refine .own steady (fun limits => (implemented limits).congr fun x result y => ?_) node level
  rw [Prod.mk.injEq, eq_comm]

theorem condition_eq (keyword : String) (span : Span) (v : Value) (s : State σ) :
    condition keyword span v s = match decision keyword v with
      | .ok holds => .ok holds s
      | .error e => .error (.failed e) (s.locate span) := by
  cases v <;> rfl

/-- A condition that is not a boolean gives its own place to the error. -/
theorem attributes_condition (own : Option Span) (level : Nat) (keyword : String) (e : Expr)
    (v : Value) :
    Attributes own level (fun _ => (condition keyword e.span v : Eval σ Bool))
      (Own (.expr e) fun x result y => decision keyword v = result ∧ x = y) := by
  have settled {x : Progress σ} {s : State σ} (ready : Ready level x s) :
      Settles own level (condition keyword e.span v s)
        ((decision keyword v).mapError (⟨·, .expr e⟩)) x := by
    rw [condition_eq]
    cases decision keyword v with
    | ok holds => exact .ok ready
    | error e' => exact ready.raises e' (.expr e)
  constructor
  · intro _ x s ready
    exact .inr ⟨_, x, ⟨_, ⟨rfl, rfl⟩, rfl, rfl⟩, settled ready⟩
  · rintro ⟨_, _⟩ ⟨_, _⟩ _ ⟨_, ⟨rfl, rfl⟩, rfl, rfl⟩
    exact ⟨0, fun _ _ s ready => settled ready⟩

theorem attributes_checks (own : Option Span) (level : Nat) (keyword : String) (e : Expr) :
    Attributes own level (fun rounds => evalCondition ⟨host, limits, rounds⟩ keyword e)
      (Checks host limits level keyword e) :=
  (attributes_expr host limits e own level).bind fun v =>
    attributes_condition own level keyword e v

theorem attributes_decides (own : Option Span) (level : Nat) (kind : LoopKind)
    (condition : Expr) :
    Attributes own level (fun rounds => evalCheck ⟨host, limits, rounds⟩ kind condition)
      (Decides host limits level kind condition) := by
  refine (attributes_checks host limits own level kind.keyword condition).bind fun holds => ?_
  have same : kind.continues holds = (holds == kind.goesOn) := by cases kind <;> cases holds <;> rfl
  rw [same]
  exact .gives _

mutual

theorem attributes_stmt : (s : Stmt) → ∀ (own : Option Span) (level : Nat),
    Attributes own level (fun rounds => discard (evalStmt ⟨host, limits, rounds⟩ s))
      (Executes host limits level s)
  | .assign target value span, own, level => by
      simp only [discard_assign, Executes]
      refine .visits (.stmt (.assign target value span)) ?_
      refine (attributes_expr host limits value _ _).bind fun v => .logged _ ?_
      exact attributes_assign target.name v _ _
  | .call callee args span, own, level => by
      simp only [discard_call, Executes]
      refine .visits (.stmt (.call callee args span)) ?_
      have called := attributes_call host limits (.stmt (.call callee args span)) callee.name
        (attributes_args host limits args _ (level + 1))
      exact called.bind fun value => .gives _
  | .loop kind condition body otherwise span, own, level => by
      simp only [discard_loop, Executes]
      refine .visits (.stmt (.loop kind condition body otherwise span)) ?_
      have check := attributes_decides host limits (some span) (level + 1) kind condition
      refine check.bind fun again => ?_
      cases again with
      | true => exact ((attributes_block body _ _).bind fun _ => check).rounds _
      | false => exact attributes_otherwise otherwise _ _
  | .branch b, own, level => by
      simp only [discard_branch, Executes]
      exact .visits (.stmt (.branch b)) (attributes_branch b _ _)

theorem attributes_block : (b : Block) → ∀ (own : Option Span) (level : Nat),
    Attributes own level (fun rounds => evalBlock ⟨host, limits, rounds⟩ b)
      (ExecutesBlock host limits level b)
  | .mk stmts span, own, level => by
      simp only [evalBlock, ExecutesBlock]
      exact attributes_stmts stmts own level

theorem attributes_branch : (b : Branch) → ∀ (own : Option Span) (level : Nat),
    Attributes own level (fun rounds => evalBranch ⟨host, limits, rounds⟩ b)
      (ExecutesBranch host limits level b)
  | .mk condition body otherwise span, own, level => by
      simp only [evalBranch, ExecutesBranch]
      refine (attributes_checks host limits own level "if" condition).bind fun holds => ?_
      cases holds with
      | true => exact attributes_block body own level
      | false => exact attributes_otherwise otherwise own level

theorem attributes_otherwise : (o : Otherwise) → ∀ (own : Option Span) (level : Nat),
    Attributes own level (fun rounds => evalOtherwise ⟨host, limits, rounds⟩ o)
      (ExecutesOtherwise host limits level o)
  | .nothing, own, level => by
      simp only [evalOtherwise, ExecutesOtherwise]
      exact .gives ()
  | .block body, own, level => by
      simp only [evalOtherwise, ExecutesOtherwise]
      exact attributes_block body own level
  | .branch b, own, level => by
      simp only [evalOtherwise, ExecutesOtherwise]
      exact attributes_branch b own level

theorem attributes_stmts : (ss : List Stmt) → ∀ (own : Option Span) (level : Nat),
    Attributes own level (fun rounds => evalStmts ⟨host, limits, rounds⟩ ss)
      (ExecutesAll host limits level ss)
  | [], own, level => by
      simp only [evalStmts, ExecutesAll]
      exact .gives ()
  | s :: ss, own, level => by
      simp only [evalStmts, ExecutesAll]
      exact (attributes_stmt s own level).bind fun _ => attributes_stmts ss own level

end

end

/-! ## Programs -/

/-- An outcome outside of all nodes has the place of the node that raised its error. -/
theorem Settles.eq_outcome {level : Nat} {r : EStateM.Result Halt (State σ) α}
    {given : Except Raised α} {y : Progress σ} (settled : Settles none level r given y) :
    ∃ s, r = outcome (given.mapError Raised.error) s ∧ s.progress = y ∧
      s.errorSpan = place given := by
  cases settled with
  | @ok a s _ ready => exact ⟨s, rfl, ready.progress, ready.clear⟩
  | @error raised s _ progress placed =>
      rw [Option.or_none] at placed
      exact ⟨s, rfl, progress, placed⟩

/-- Concluding a program keeps the place of an error, and reports none for flushing. -/
theorem Settles.conclude {level : Nat} {r : EStateM.Result Halt (State σ) Unit}
    {given : Except Raised Unit} {y : Progress σ} (settled : Settles none level r given y) :
    ∃ s, conclude r = outcome ((given.mapError Raised.error).bind fun _ => y.store.sink.flush) s ∧
      s.progress = y ∧ s.errorSpan = place given := by
  obtain ⟨s₁, rfl, rfl, placed⟩ := settled.eq_outcome
  obtain ⟨s, concluded, store, steps, kept⟩ := conclude_outcome (given.mapError Raised.error) s₁
  refine ⟨s, concluded, ?_, kept.trans placed⟩
  rw [State.progress, State.progress, store, steps]

/-- A program ends in every way that the rules derive for its statements. -/
theorem ends_of_executes {host : Host σ} {limits : Limits} {program : Program} {s : State σ}
    {given : Except Raised Unit} {after : Progress σ}
    (derived : ExecutesAll host limits s.depth program.stmts s.progress given after) :
    ∃ s', Ends host limits program s
        ((given.mapError Raised.error).bind fun _ => after.store.sink.flush) s' ∧
      s'.progress = after ∧ s'.errorSpan = place given := by
  have ready : Ready s.depth s.progress (begin program s) := ⟨rfl, rfl, rfl⟩
  obtain ⟨least, ends⟩ :=
    (attributes_stmts host limits program.stmts none s.depth).complete derived
  obtain ⟨s', concluded, reached, placed⟩ := (ends least (Nat.le_refl least) _ ready).conclude
  refine ⟨s', ⟨least, ?_⟩, reached, placed⟩
  rw [evalProgram_eq]
  exact concluded

end Blame

/--
The place of an error is that of the node that raised it.  Whatever the
budgets, the functions of the host and the state before, a place known from
earlier runs included: a run ends with a result, a store, a number of visited
nodes and a place if and only if the rules that blame nodes derive them.  The
result is that of the statements, or of flushing the sink after them; the
place is the region of the node blamed for an error of the statements, and
there is none if only flushing fails.
-/
theorem ends_iff_blames (host : Host σ) (limits : Limits) (program : Program) (s : State σ)
    (result : Except EvalError Unit) (after : Blame.Progress σ) (place : Option Span) :
    (∃ s', Ends host limits program s result s' ∧ s'.progress = after ∧ s'.errorSpan = place) ↔
    ∃ given, Blame.ExecutesAll host limits s.depth program.stmts s.progress given after ∧
      result = (given.mapError Blame.Raised.error).bind (fun _ => after.store.sink.flush) ∧
      place = Blame.place given := by
  have attributed := Blame.attributes_stmts host limits program.stmts none s.depth
  have ready : Blame.Ready s.depth s.progress (begin program s) := ⟨rfl, rfl, rfl⟩
  constructor
  · rintro ⟨s', ⟨rounds, ended⟩, rfl, rfl⟩
    rw [evalProgram_eq] at ended
    obtain ⟨s₁, stopped⟩ | ⟨given, y, derived, settled⟩ := attributed.sound rounds ready
    · rw [stopped] at ended
      cases result <;> cases ended
    · obtain ⟨s₁, concluded, rfl, placed⟩ := settled.conclude
      obtain ⟨rfl, rfl⟩ := outcome_inj (concluded.symm.trans ended)
      exact ⟨given, derived, rfl, placed⟩
  · rintro ⟨given, derived, rfl, rfl⟩
    exact Blame.ends_of_executes derived

end TinyScript
