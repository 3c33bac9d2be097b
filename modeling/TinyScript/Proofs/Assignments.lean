import TinyScript.Proofs.Replaying

/-!
# Only assignments change names

Expressions leave the environment as it is.  A call of the host changes it by
the assignments that it completes, and in no other way: a name has the value
of its last completed assignment, or else the binding it had before.  An
assignment whose expression fails changes nothing.  So names stay bound, and a
name that the tree assigns to nowhere keeps its binding or its absence.
-/

namespace TinyScript

open Eval

variable {σ α : Type}

mutual

/-- The names that a statement may assign to. -/
def Stmt.targets : Stmt → List String
  | .assign target _ _ => [target.name]
  | .call _ _ _ => []
  | .loop _ _ body otherwise _ => body.targets ++ otherwise.targets
  | .branch b => b.targets

def Block.targets : Block → List String
  | .mk stmts _ => stmtTargets stmts

def Branch.targets : Branch → List String
  | .mk _ body otherwise _ => body.targets ++ otherwise.targets

def Otherwise.targets : Otherwise → List String
  | .nothing => []
  | .block body => body.targets
  | .branch b => b.targets

def stmtTargets : List Stmt → List String
  | [] => []
  | s :: ss => s.targets ++ stmtTargets ss

end

/-- The names that a call of the host may assign to. -/
def Call.targets : Call → List String
  | .program p => stmtTargets p.stmts
  | .block b => b.targets
  | .stmt s => s.targets
  | .expr _ => []

def History.Within (allowed : Deed → Prop) (h : History σ) : Prop := ∀ s, ∀ d ∈ h s, allowed d

namespace History

variable {allowed : Deed → Prop}

theorem within_nothing : (nothing : History σ).Within allowed := fun _ => List.forall_mem_nil _

theorem within_after {p : Eval σ α} {next : α → History σ}
    (each : ∀ a, (next a).Within allowed) : (after p next).Within allowed := by
  intro s
  unfold after
  cases p s with
  | ok a s' => exact each a s'
  | error halt s' => exact List.forall_mem_nil _

theorem Within.andThen {first : History σ} {p : Eval σ α} {next : α → History σ}
    (within : first.Within allowed) (each : ∀ a, (next a).Within allowed) :
    (first.andThen p next).Within allowed :=
  fun s => List.forall_mem_append.2 ⟨within s, within_after each s⟩

theorem Within.inside {h : History σ} (within : h.Within allowed) (limits : Limits) :
    (h.inside limits).Within allowed := by
  intro s
  unfold History.inside
  split
  · exact List.forall_mem_nil _
  · exact within_after (fun _ => within) s.enter

theorem Within.rounds {each : History σ} (within : each.Within allowed) (round : Eval σ Bool)
    (bound : Nat) : (each.rounds round bound).Within allowed := by
  induction bound with
  | zero => exact within_nothing
  | succ bound ih =>
      refine within.andThen fun again => ?_
      cases again with
      | true => exact ih
      | false => exact within_nothing

theorem Within.mono {allowed' : Deed → Prop} (weaker : ∀ d, allowed d → allowed' d)
    {h : History σ} (within : h.Within allowed) : h.Within allowed' :=
  fun s d mem => weaker d (within s d mem)

end History

def Deed.IsCall : Deed → Prop
  | .calls _ _ _ => True
  | .assigns _ _ => False

def Deed.AssignsTo (names : List String) : Deed → Prop
  | .calls _ _ _ => True
  | .assigns target _ => target ∈ names

theorem Deed.IsCall.assignsTo {d : Deed} (isCall : d.IsCall) (names : List String) :
    d.AssignsTo names := by
  cases d with
  | calls => trivial
  | assigns => exact absurd isCall id

section

variable (setting : Setting σ)

theorem within_callDeeds {allowed : Deed → Prop} (isAllowed : ∀ d : Deed, d.IsCall → allowed d)
    (name : String) (args : List Expr) {given : History σ} (within : given.Within allowed) :
    (callDeeds setting name args given).Within allowed :=
  History.within_after fun _ => within.andThen fun _ _ =>
    List.forall_mem_singleton.2 (isAllowed _ trivial)

mutual

/-- Expressions call functions and do nothing else. -/
theorem Expr.deeds_isCall : (e : Expr) → (e.deeds setting).Within Deed.IsCall
  | .const literal span => History.within_nothing
  | .ident name span => History.within_nothing
  | .call callee args span => by
      rw [Expr.deeds]
      exact (within_callDeeds setting (fun _ => id) _ args (deedsOf_isCall args)).inside _
  | .additive left op right span => by
      rw [Expr.deeds]
      exact (left.deeds_isCall.andThen fun _ => right.deeds_isCall).inside _
  | .comparison left op right span => by
      rw [Expr.deeds]
      exact (left.deeds_isCall.andThen fun _ => right.deeds_isCall).inside _
  | .paren inner span => by
      rw [Expr.deeds]
      exact inner.deeds_isCall.inside _

theorem deedsOf_isCall : (es : List Expr) → (deedsOf setting es).Within Deed.IsCall
  | [] => History.within_nothing
  | e :: es => by
      rw [deedsOf]
      exact e.deeds_isCall.andThen fun _ => deedsOf_isCall es

end

variable {names : List String}

theorem Expr.deeds_assignsTo (e : Expr) : (e.deeds setting).Within (Deed.AssignsTo names) :=
  (e.deeds_isCall setting).mono fun _ isCall => isCall.assignsTo names

mutual

theorem Stmt.deeds_assignsTo : (s : Stmt) → s.targets ⊆ names →
    (s.deeds setting).Within (Deed.AssignsTo names)
  | .assign target value span, among => by
      rw [Stmt.deeds]
      refine History.Within.inside (fun s => ?_) _
      refine List.forall_mem_append.2 ⟨value.deeds_assignsTo setting s, ?_⟩
      exact List.forall_mem_singleton.2 (among List.mem_cons_self)
  | .call callee args _, _ => by
      rw [Stmt.deeds]
      have given := (deedsOf_isCall setting args).mono fun _ isCall => isCall.assignsTo names
      exact (within_callDeeds setting (fun _ isCall => isCall.assignsTo names) _ args
        given).inside _
  | .loop kind condition body otherwise span, among => by
      obtain ⟨inBody, inOther⟩ := List.append_subset.1 among
      have guard : (condition.deeds setting).Within (Deed.AssignsTo names) :=
        condition.deeds_assignsTo setting
      rw [Stmt.deeds]
      refine (guard.andThen fun again => ?_).inside _
      cases again with
      | true => exact ((body.deeds_assignsTo inBody).andThen fun _ => guard).rounds _ _
      | false => exact otherwise.deeds_assignsTo inOther
  | .branch b, among => by
      rw [Stmt.deeds]
      exact (b.deeds_assignsTo among).inside _

theorem Block.deeds_assignsTo : (b : Block) → b.targets ⊆ names →
    (b.deeds setting).Within (Deed.AssignsTo names)
  | .mk stmts _, among => stmtDeeds_assignsTo stmts among

theorem Branch.deeds_assignsTo : (b : Branch) → b.targets ⊆ names →
    (b.deeds setting).Within (Deed.AssignsTo names)
  | .mk condition body otherwise span, among => by
      obtain ⟨inBody, inOther⟩ := List.append_subset.1 among
      rw [Branch.deeds]
      refine (condition.deeds_assignsTo setting).andThen fun holds => ?_
      cases holds with
      | true => exact body.deeds_assignsTo inBody
      | false => exact otherwise.deeds_assignsTo inOther

theorem Otherwise.deeds_assignsTo : (o : Otherwise) → o.targets ⊆ names →
    (o.deeds setting).Within (Deed.AssignsTo names)
  | .nothing, _ => History.within_nothing
  | .block body, among => body.deeds_assignsTo among
  | .branch b, among => b.deeds_assignsTo among

theorem stmtDeeds_assignsTo : (ss : List Stmt) → stmtTargets ss ⊆ names →
    (stmtDeeds setting ss).Within (Deed.AssignsTo names)
  | [], _ => History.within_nothing
  | s :: ss, among => by
      obtain ⟨inFirst, inOthers⟩ := List.append_subset.1 among
      rw [stmtDeeds]
      exact (s.deeds_assignsTo inFirst).andThen fun _ => stmtDeeds_assignsTo ss inOthers

end

/-- A call of the host assigns to names of its tree only. -/
theorem Call.deeds_assignsTo (call : Call) :
    (call.deeds setting).Within (Deed.AssignsTo call.targets) := by
  cases call with
  | program p =>
      exact fun s => stmtDeeds_assignsTo setting p.stmts (List.Subset.refl _) (begin p s)
  | block b => exact b.deeds_assignsTo setting (List.Subset.refl _)
  | stmt s => exact s.deeds_assignsTo setting (List.Subset.refl _)
  | expr e => exact e.deeds_assignsTo setting

end

/-- The value that a deed gives to a name. -/
def Deed.gives? (name : String) : Deed → Option Value
  | .assigns target value => if target = name then value else none
  | .calls _ _ _ => none

/-- The value of the last completed assignment to a name. -/
def lastGiven (name : String) (deeds : List Deed) : Option Value :=
  (deeds.filterMap (Deed.gives? name)).getLast?

theorem lastGiven_cons (name : String) (d : Deed) (deeds : List Deed) :
    lastGiven name (d :: deeds) = (lastGiven name deeds).or (d.gives? name) := by
  unfold lastGiven
  cases given : d.gives? name with
  | none => rw [List.filterMap_cons_none given, Option.or_none]
  | some v =>
      rw [List.filterMap_cons_some given, List.getLast?_cons]
      cases (deeds.filterMap (Deed.gives? name)).getLast? <;> rfl

theorem lastGiven_append_of_none {name : String} (earlier : List Deed) {later : List Deed}
    (none : ∀ d ∈ later, d.gives? name = none) :
    lastGiven name (earlier ++ later) = lastGiven name earlier := by
  unfold lastGiven
  rw [List.filterMap_append, List.filterMap_eq_nil_iff.2 none, List.append_nil]

/-- A deed binds the name that it gives a value, and leaves every other name. -/
theorem get?_perform (host : Host σ) (x : Store σ) (d : Deed) (name : String) :
    (d.perform host x).env.get? name = (d.gives? name).or (x.env.get? name) := by
  cases d with
  | assigns target value =>
      cases value with
      | none =>
          rw [Deed.gives?, ite_self]
          rfl
      | some v =>
          change (x.env.assign target v).get? name = _
          rw [Environment.get?_assign, Deed.gives?]
          by_cases same : name = target
          · rw [if_pos same, if_pos same.symm]
            rfl
          · rw [if_neg same, if_neg (Ne.symm same)]
            rfl
  | calls name' f args =>
      rw [Deed.perform, x.env_invoke]
      rfl

theorem get?_replay (host : Host σ) (x : Store σ) (deeds : List Deed) (name : String) :
    (replay host x deeds).env.get? name = (lastGiven name deeds).or (x.env.get? name) := by
  induction deeds generalizing x with
  | nil => rfl
  | cons d deeds ih =>
      rw [lastGiven_cons, Option.or_assoc, ← get?_perform host]
      exact ih (d.perform host x)

theorem env_replay_of_isCall (host : Host σ) {deeds : List Deed} (calls : ∀ d ∈ deeds, d.IsCall)
    (x : Store σ) : (replay host x deeds).env = x.env := by
  induction deeds generalizing x with
  | nil => rfl
  | cons d deeds ih =>
      obtain ⟨first, others⟩ := List.forall_mem_cons.1 calls
      cases d with
      | assigns => exact absurd first id
      | calls name f args => exact (ih others _).trans (x.env_invoke host f args)

/-- Evaluating an expression leaves the environment as it is. -/
theorem env_evalExpr (setting : Setting σ) (e : Expr) (s : State σ) :
    (final (evalExpr setting e s)).env = s.env := by
  have does : Does (fun _ => True) setting (evalExpr setting e) (e.deeds setting)
      (·.Known fun _ => True) := does_expr e
  have told := (does.told (fun _ _ _ _ v _ _ _ => v.known_of_all) s fun _ v _ => v.known_of_all).1
  have env := congrArg Store.env told.store
  exact env.trans (env_replay_of_isCall setting.host (e.deeds_isCall setting s) s.store)

/-- The environment after a call has the values of the last completed assignments. -/
theorem get?_run (setting : Setting σ) (call : Call) (s : State σ) (name : String) :
    (final (call.run setting s)).env.get? name =
      (lastGiven name (call.deeds setting s)).or (s.env.get? name) := by
  have account : Accounted (fun _ => True) setting.host s (call.deeds setting s)
      (final (call.run setting s)) :=
    call.accounted (fun _ _ _ _ v _ _ _ => v.known_of_all) fun _ v _ => v.known_of_all
  have env := congrArg (fun x => x.env.get? name) account.store
  exact env.trans (get?_replay setting.host s.store (call.deeds setting s) name)

/-- A name that a call assigns to nowhere keeps its binding or its absence. -/
theorem get?_run_of_not_mem (setting : Setting σ) {call : Call} {name : String}
    (other : name ∉ call.targets) (s : State σ) :
    (final (call.run setting s)).env.get? name = s.env.get? name := by
  have none : ∀ d ∈ call.deeds setting s, d.gives? name = none := by
    intro d mem
    have assigns := call.deeds_assignsTo setting s d mem
    cases d with
    | assigns target value =>
        refine if_neg fun same => other ?_
        rw [← same]
        exact assigns
    | calls name' f args => rfl
  rw [get?_run, ← List.nil_append (call.deeds setting s), lastGiven_append_of_none [] none]
  rfl

/--
Only assignments change the environment, whether a call of the host succeeds
or fails.  Evaluating an expression leaves the environment as it is.  After
any call, every name bound before is bound, a name that the tree assigns to
nowhere is as before, and every name has the value of its last completed
assignment, or else its binding from before.  In particular, a name for which
the last assignment that was tried has failed keeps the value of the last one
that was completed.
-/
theorem assignments_alone_write (setting : Setting σ) (s : State σ) :
    (∀ e, (final (evalExpr setting e s)).env = s.env) ∧
    ∀ (call : Call) (name : String),
      let after := (final (call.run setting s)).env
      let deeds := call.deeds setting s
      ((s.env.get? name).isSome → (after.get? name).isSome) ∧
      (name ∉ call.targets → after.get? name = s.env.get? name) ∧
      after.get? name = (lastGiven name deeds).or (s.env.get? name) ∧
      ∀ earlier later, deeds = earlier ++ .assigns name none :: later →
        (∀ value, .assigns name value ∉ later) →
        after.get? name = (lastGiven name earlier).or (s.env.get? name) := by
  refine ⟨fun e => env_evalExpr setting e s, fun call name => ?_⟩
  dsimp only
  refine ⟨fun bound => ?_, fun other => get?_run_of_not_mem setting other s,
    get?_run setting call s name, fun earlier later split last => ?_⟩
  · rw [get?_run, Option.isSome_or, bound, Bool.or_true]
  · rw [get?_run, split, lastGiven_append_of_none]
    refine List.forall_mem_cons.2 ⟨if_pos rfl, fun d mem => ?_⟩
    cases d with
    | assigns target value =>
        refine if_neg fun same => last value ?_
        rwa [same] at mem
    | calls name' f args => rfl

/-- The loop `while more() { x = count(); x = y; }`, whose second assignment fails. -/
def failingAssignment : Call :=
  let span : Span := default
  .stmt (.loop .whileTrue (.call ⟨"more", span⟩ [] span)
    (.mk [.assign ⟨"x", span⟩ (.call ⟨"count", span⟩ [] span) span,
      .assign ⟨"x", span⟩ (.ident "y" span) span] span) .nothing span)

/-- The loop stops at its second assignment, and its first one counts. -/
theorem assignments_alone_write_failingAssignment :
    let setting : Setting Catalogue := ⟨Catalogue.host, {}, 2⟩
    failingAssignment.deeds setting guardedState =
      [.calls "more" ⟨"more", .host 0⟩ [], .calls "count" ⟨"count", .host 1⟩ [],
        .assigns "x" (some (.integer 1)), .assigns "x" none] ∧
    (final (failingAssignment.run setting guardedState)).env.get? "x" = some (.integer 1) ∧
    (final (failingAssignment.run setting guardedState)).env.get? "y" = none := by
  intro setting
  have deeds : failingAssignment.deeds setting guardedState =
      [.calls "more" ⟨"more", .host 0⟩ [], .calls "count" ⟨"count", .host 1⟩ [],
        .assigns "x" (some (.integer 1))] ++ [.assigns "x" none] := by
    decide +kernel
  obtain ⟨_, _, _, last⟩ := (assignments_alone_write setting guardedState).2 failingAssignment "x"
  obtain ⟨_, other, _⟩ := (assignments_alone_write setting guardedState).2 failingAssignment "y"
  exact ⟨deeds, (last _ _ deeds (fun _ => List.not_mem_nil)).trans (by decide +kernel),
    (other (by decide)).trans (by decide +kernel)⟩

end TinyScript
