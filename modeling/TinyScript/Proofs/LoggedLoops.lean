import TinyScript.Proofs.LoggedDeeds
import TinyScript.Proofs.LoopRuns

/-!
# The log tells which loops were completed

A loop that is completed, after one round or more, has one entry in the log,
with the number of its rounds.  No other loop has one: not if its first check
ends it, and not if something fails in it.  Loops are found along the points of
an evaluation, so the entries are compared with what is reached and not with
what is written.  They stand in the order in which the loops end.
-/

namespace TinyScript

open Eval

variable {σ α β : Type}

def State.loopEntries (s : State σ) : List (String × String) :=
  s.events.toList.filterMap Event.loop?

theorem State.loopEntries_log (s : State σ) (e : Event) :
    (s.log e).loopEntries = s.loopEntries ++ e.loop?.toList := by
  rw [State.loopEntries, State.log, Array.toList_push, List.filterMap_append]
  cases loop : e.loop? <;> simp [loop, State.loopEntries]

def Eval.Loopless (p : Eval σ α) : Prop :=
  ∀ s : State σ, (final (p s)).loopEntries = s.loopEntries

theorem Eval.Loopless.bind {p : Eval σ α} {f : α → Eval σ β} (first : Loopless p)
    (next : ∀ a, Loopless (f a)) : Loopless (p >>= f) :=
  final_bind (R := fun s t => t.loopEntries = s.loopEntries)
    (fun before after => after.trans before) first next

theorem loopless_tick (limits : Limits) : Loopless (tick limits : Eval σ Unit) := by
  intro s
  rw [final_tick]
  rfl

theorem Eval.Loopless.nested {p : Eval σ α} (inside : Loopless p) (limits : Limits)
    (span : Span) : Loopless (nested limits span p) := by
  intro s
  rw [nested_eq]
  split
  · rfl
  · have kept := (loopless_tick limits).bind (fun _ => inside) s.enter
    cases ran : (tick limits >>= fun _ => p) s.enter <;> rw [ran] at kept <;> exact kept

theorem loopless_emit {e : Event} (none : e.loop? = none) :
    Loopless (emit e : Eval σ Unit) := by
  intro s
  have logged := s.loopEntries_log e
  rwa [none, Option.toList_none, List.append_nil] at logged

theorem loopless_ofExcept (x : Except EvalError α) : Loopless (ofExcept x : Eval σ α) := by
  intro s
  rw [final_ofExcept]

theorem loopless_callee (name : String) : Loopless (callee name : Eval σ Native) := by
  intro s
  rw [final_callee]

theorem loopless_invoke (host : Host σ) (f : Native) (args : List Value) :
    Loopless (invoke host f args) := by
  intro s
  rw [invoke_eq, final_ofExcept]
  rfl

section

variable (setting : Setting σ)

mutual

theorem loopless_expr : (e : Expr) → Loopless (evalExpr setting e)
  | .const literal span => by
      rw [evalExpr]
      exact (loopless_ofExcept _).nested _ _
  | .ident name span => by
      rw [evalExpr]
      refine Loopless.nested (fun s => ?_) _ _
      rw [final_lookup]
  | .call name args span => by
      rw [evalExpr]
      refine Loopless.nested ?_ _ _
      refine (loopless_callee _).bind fun f => (loopless_args args).bind fun values => ?_
      refine (loopless_emit rfl).bind fun _ => ?_
      exact (loopless_invoke setting.host f values).bind fun _ _ => rfl
  | .additive left op right span => by
      rw [evalExpr]
      refine Loopless.nested ?_ _ _
      refine (loopless_expr left).bind fun a => (loopless_expr right).bind fun b => ?_
      exact loopless_ofExcept _
  | .comparison left op right span => by
      rw [evalExpr]
      refine Loopless.nested ?_ _ _
      refine (loopless_expr left).bind fun a => (loopless_expr right).bind fun b => ?_
      exact loopless_ofExcept _
  | .paren inner span => by
      rw [evalExpr]
      exact (loopless_expr inner).nested _ _

theorem loopless_args : (es : List Expr) → Loopless (evalArgs setting es)
  | [] => by
      rw [evalArgs]
      exact fun _ => rfl
  | e :: es => by
      rw [evalArgs]
      exact (loopless_expr e).bind fun v => (loopless_args es).bind fun _ _ => rfl

end

theorem loopless_condition (keyword : String) (e : Expr) :
    Loopless (evalCondition setting keyword e) :=
  (loopless_expr setting e).bind fun v s => by cases v <;> rfl

theorem loopless_check (kind : LoopKind) (condition : Expr) :
    Loopless (evalCheck setting kind condition) :=
  (loopless_condition setting kind.keyword condition).bind fun _ _ => rfl

end

def LoopRun.entry (run : LoopRun σ) : String × String := (run.kind.keyword, toString run.rounds)

/--
From one state to another, the log gets an entry for each of the found runs of
loops, in the order in which these end.
-/
structure Listed (found : LoopRun σ → Prop) (s t : State σ) (runs : List (LoopRun σ)) : Prop where
  entries : t.loopEntries = s.loopEntries ++ runs.map LoopRun.entry
  mem : ∀ run, run ∈ runs ↔ found run
  order : runs.Pairwise fun run next => run.ended.steps < next.ended.steps
  after : ∀ run ∈ runs, s.steps < run.ended.steps
  before : ∀ run ∈ runs, run.ended.steps ≤ t.steps
  grown : s.steps ≤ t.steps

def Lists (found : LoopRun σ → Prop) (s t : State σ) : Prop := ∃ runs, Listed found s t runs

namespace Lists

variable {found found' : LoopRun σ → Prop} {s t u : State σ}

theorem congr (same : ∀ run, found run ↔ found' run) (lists : Lists found s t) :
    Lists found' s t := by
  obtain ⟨runs, listed⟩ := lists
  exact ⟨runs, { listed with mem := fun run => (listed.mem run).trans (same run) }⟩

theorem nothing (none : ∀ run, ¬ found run) (same : t.loopEntries = s.loopEntries)
    (grown : s.steps ≤ t.steps) : Lists found s t :=
  ⟨[], by rw [same, List.map_nil, List.append_nil], fun run =>
    iff_of_false List.not_mem_nil (none run), .nil, List.forall_mem_nil _, List.forall_mem_nil _,
    grown⟩

/-- Only the log and the number of visited nodes matter. -/
theorem of_same {s' t' : State σ} (lists : Lists found s t) (begun : s'.events = s.events)
    (ended : t'.events = t.events) (low : s'.steps = s.steps) (high : t'.steps = t.steps) :
    Lists found s' t' := by
  obtain ⟨runs, entries, mem, order, after, before, grown⟩ := lists
  refine ⟨runs, ?_, mem, order, low.symm ▸ after, high.symm ▸ before, low.symm ▸ high.symm ▸ grown⟩
  rw [State.loopEntries, ended, ← State.loopEntries, entries, State.loopEntries, ← begun,
    ← State.loopEntries]

/-- One part of an evaluation after another: runs of the first end before those of the second. -/
theorem append (first : Lists found s t) (second : Lists found' t u) :
    Lists (fun run => found run ∨ found' run) s u := by
  obtain ⟨runs, early⟩ := first
  obtain ⟨runs', late⟩ := second
  refine ⟨runs ++ runs', ?_, fun run => ?_, ?_, ?_, ?_, Nat.le_trans early.grown late.grown⟩
  · rw [late.entries, early.entries, List.map_append, List.append_assoc]
  · rw [List.mem_append, early.mem, late.mem]
  · refine List.pairwise_append.2 ⟨early.order, late.order, fun run mem run' mem' => ?_⟩
    exact Nat.lt_of_le_of_lt (early.before run mem) (late.after run' mem')
  · exact List.forall_mem_append.2 ⟨early.after, fun run mem =>
      Nat.lt_of_le_of_lt early.grown (late.after run mem)⟩
  · exact List.forall_mem_append.2 ⟨fun run mem =>
      Nat.le_trans (early.before run mem) late.grown, late.before⟩

/-- A run that ends behind all others, and has its entry there. -/
theorem finish (lists : Lists found s t) {run : LoopRun σ}
    (entry : u.loopEntries = t.loopEntries ++ [run.entry])
    (last : ∀ other, found other → other.ended.steps < run.ended.steps)
    (after : s.steps < run.ended.steps) (before : run.ended.steps ≤ u.steps) :
    Lists (fun other => other = run ∨ found other) s u := by
  obtain ⟨runs, listed⟩ := lists
  refine ⟨runs ++ [run], ?_, fun other => ?_, ?_, ?_, ?_, ?_⟩
  · rw [entry, listed.entries, List.map_append, List.append_assoc, List.map_singleton]
  · rw [List.mem_append, List.mem_singleton, listed.mem, or_comm]
  · refine List.pairwise_append.2 ⟨listed.order, List.pairwise_singleton _ _, ?_⟩
    intro other mem _ here
    rw [List.mem_singleton.1 here]
    exact last other ((listed.mem other).1 mem)
  · exact List.forall_mem_append.2 ⟨listed.after, List.forall_mem_singleton.2 after⟩
  · refine List.forall_mem_append.2 ⟨fun other mem => ?_, List.forall_mem_singleton.2 before⟩
    exact Nat.le_trans (Nat.le_of_lt (last other ((listed.mem other).1 mem))) before
  · exact Nat.le_trans (Nat.le_of_lt after) before

end Lists

/-- A computation from a state lists the found runs of loops, if it ends. -/
def ListsLoops (found : LoopRun σ → Prop) (p : Eval σ α) (s : State σ) : Prop :=
  ∀ result t, p s = outcome result t → Lists found s t

namespace ListsLoops

variable {found found' : LoopRun σ → Prop} {p : Eval σ α} {s : State σ}

theorem congr (same : ∀ run, found run ↔ found' run) (lists : ListsLoops found p s) :
    ListsLoops found' p s :=
  fun result t ended => (lists result t ended).congr same

theorem nothing (none : ∀ run, ¬ found run) (loopless : Loopless p) (growing : Growing p) :
    ListsLoops found p s := by
  intro result t ended
  have kept := loopless s
  have grown := (growing s).2
  rw [ended, final_outcome] at kept grown
  exact .nothing none kept grown

theorem bind {g : α → Eval σ β} {next : α → State σ → LoopRun σ → Prop}
    (first : ListsLoops found p s)
    (second : ∀ a s₁, p s = .ok a s₁ → ListsLoops (next a s₁) (g a) s₁) :
    ListsLoops (fun run => found run ∨ ∃ a s₁, p s = .ok a s₁ ∧ next a s₁ run) (p >>= g) s := by
  intro result t ended
  rw [bind_eq] at ended
  cases ran : p s with
  | ok a s₁ =>
      rw [ran] at ended
      have lists := (first (.ok a) s₁ ran).append (second a s₁ ran result t ended)
      refine lists.congr fun run => or_congr_right ⟨fun later => ⟨a, s₁, rfl, later⟩, ?_⟩
      rintro ⟨_, _, ⟨⟩, later⟩
      exact later
  | error halt s₁ =>
      rw [ran] at ended
      obtain ⟨e, rfl, rfl, rfl⟩ := of_error ended
      refine (first (.error e) s₁ ran).congr fun run => (or_iff_left ?_).symm
      rintro ⟨_, _, ⟨⟩, _⟩

theorem of_discard (lists : ListsLoops found (discard p) s) : ListsLoops found p s := by
  intro result t ended
  refine lists (result.map fun _ => ()) t ?_
  rw [discard_eq, bind_eq, ended]
  cases result <;> rfl

/-- What follows and logs no loops adds no runs. -/
theorem quiet {g : α → Eval σ β} (first : ListsLoops found p s) (loopless : ∀ a, Loopless (g a))
    (growing : ∀ a, Growing (g a)) : ListsLoops found (p >>= g) s := by
  have second : ∀ a s₁, p s = .ok a s₁ → ListsLoops (fun _ => False) (g a) s₁ :=
    fun a _ _ => .nothing (fun _ => id) (loopless a) (growing a)
  refine (first.bind second).congr fun run => or_iff_left ?_
  rintro ⟨_, _, _, none⟩
  exact none

end ListsLoops

section

variable {setting : Setting σ} {kind : LoopKind} {condition : Expr} {body : Block}
  {otherwise : Otherwise} {span : Span} {n : Nat} {s s₂ t : State σ}

/-- All loops inside of rounds end before the last check does. -/
theorem Rounds.inner_steps_lt
    (inBody : ∀ s, ListsLoops (LoopRun.From setting (.block body) s) (evalBlock setting body) s)
    (rounds : Rounds setting kind condition body n s t) {run : LoopRun σ}
    (found : run.From setting (.rounds kind condition body) s) :
    run.ended.steps < t.steps := by
  have inRound {s s₁ s₂ : State σ} {again : Bool} (ran : evalBlock setting body s = .ok () s₁)
      (checked : evalCheck setting kind condition s₁ = .ok again s₂)
      (inner : run.From setting (.block body) s) : run.ended.steps < s₂.steps := by
    obtain ⟨runs, listed⟩ := inBody s (.ok ()) s₁ ran
    exact Nat.lt_of_le_of_lt (listed.before run ((listed.mem run).2 inner))
      (steps_lt_of_check checked)
  induction rounds with
  | last ran checked =>
      rcases LoopRun.from_rounds.1 found with inner | ⟨_, s₂, round, rfl, _⟩
      · exact inRound ran checked inner
      · rw [evalRound, bind_eq, ran] at round
        cases checked.symm.trans round
  | more ran checked others ih =>
      rcases LoopRun.from_rounds.1 found with inner | ⟨_, s₂, round, rfl, later⟩
      · exact Nat.lt_trans (inRound ran checked inner) others.steps_lt
      · rw [evalRound, bind_eq, ran] at round
        cases checked.symm.trans round
        exact ih later

/-- Rounds list what is found in them, whatever bounds their number. -/
theorem lists_rounds
    (inBody : ∀ s, ListsLoops (LoopRun.From setting (.block body) s) (evalBlock setting body) s)
    (bound done : Nat) (s : State σ) :
    ListsLoops (LoopRun.From setting (.rounds kind condition body) s)
      (repeatRounds (evalRound setting kind condition body) bound done) s := by
  induction bound generalizing done s with
  | zero =>
      intro result t ended
      obtain ⟨_, ⟨⟩, _⟩ := of_error ended
  | succ bound ih =>
      rw [repeatRounds]
      have round := (inBody s).quiet (fun _ => loopless_check setting kind condition)
        fun _ => (built_check setting kind condition).growing
      have others : ∀ again s₂, evalRound setting kind condition body s = .ok again s₂ →
          ListsLoops (fun run => again = true ∧ run.From setting (.rounds kind condition body) s₂)
            (if again then repeatRounds (evalRound setting kind condition body) bound (done + 1)
              else pure (done + 1)) s₂ := by
        intro again s₂ _
        cases again with
        | true => exact (ih (done + 1) s₂).congr fun run => (and_iff_right rfl).symm
        | false =>
            exact .nothing (fun _ found => Bool.false_ne_true found.1) (fun _ => rfl)
              fun s => .refl s
      exact (round.bind others).congr fun run => LoopRun.from_rounds.symm

/-- A node is left as its inside ends; a node that is not entered has no runs. -/
theorem ListsLoops.node {n : Node} {p : Eval σ α}
    (inside : s.depth < setting.limits.maxDepth →
      ListsLoops (fun run => run.At setting n s ∨ run.From setting (.inside n) s.enter)
        (tick setting.limits >>= fun _ => p) s.enter) :
    ListsLoops (LoopRun.From setting (.node n) s) (nested setting.limits span p) s := by
  intro result t ended
  rw [nested_eq] at ended
  split at ended
  · next full =>
      obtain ⟨e, _, rfl, rfl⟩ := of_error ended
      refine .nothing (fun run found => ?_) rfl (Nat.le_refl _)
      rcases LoopRun.from_node.1 found with here | ⟨room, _⟩
      · exact absurd (here.begun ▸ here.completed.entered.1) (Nat.not_lt.2 full)
      · exact absurd room (Nat.not_lt.2 full)
  · next notFull =>
      have room := Nat.lt_of_not_le notFull
      obtain ⟨s₁, ran, events, steps⟩ := of_leave_events ended
      have entered : Lists (fun run => run.At setting n s ∨
          run.From setting (.inside n) s.enter) s t :=
        (inside room result s₁ ran).of_same rfl events rfl steps
      refine entered.congr fun run => ?_
      rw [LoopRun.from_node, and_iff_right room]

/-- Behind its first check a loop lists what is found in its rounds, and itself if they end. -/
theorem lists_again
    (inBody : ∀ s, ListsLoops (LoopRun.From setting (.block body) s) (evalBlock setting body) s)
    (room : s.depth < setting.limits.maxDepth)
    (checked : (tick setting.limits >>= fun _ => evalCheck setting kind condition) s.enter =
      .ok true s₂) :
    ListsLoops (fun run => run.At setting (.stmt (.loop kind condition body otherwise span)) s ∨
        run.From setting (.rounds kind condition body) s₂)
      (do
        let n ← repeatRounds (evalRound setting kind condition body) setting.rounds 0
        emit (.loopFinished kind n)) s₂ := by
  intro result t ended
  rw [bind_eq] at ended
  have lists := @lists_rounds _ setting kind condition body inBody setting.rounds 0 s₂
  cases repeated : repeatRounds (evalRound setting kind condition body) setting.rounds 0 s₂ with
  | ok n u =>
      rw [repeated] at ended
      obtain ⟨rfl, rfl⟩ := outcome_inj (show outcome (.ok ()) _ = outcome result t from ended)
      obtain ⟨_, _, rounds⟩ := Rounds.of_repeatRounds repeated
      let whole : LoopRun σ := ⟨kind, condition, body, otherwise, span, s, n,
        final (leave span (.ok () (u.log (.loopFinished kind n))))⟩
      have finished : Lists (fun run => run = whole ∨
          run.From setting (.rounds kind condition body) s₂) s₂ (u.log (.loopFinished kind n)) :=
        (lists (.ok n) u repeated).finish (u.loopEntries_log (.loopFinished kind n))
          (fun _ found => rounds.inner_steps_lt inBody found) rounds.steps_lt (Nat.le_refl _)
      exact finished.congr fun run =>
        or_congr_left (LoopRun.at_iff room checked repeated run).symm
  | error halt u =>
      rw [repeated] at ended
      obtain ⟨e, rfl, rfl, rfl⟩ := of_error ended
      refine (lists (.error e) u repeated).congr fun run => (or_iff_right ?_).symm
      -- a loop that fails in its rounds is not completed
      rintro ⟨same, rfl, ⟨v, succeeded⟩, _⟩
      have failed := @discard_loop_again _ setting kind condition body otherwise span _ s₂
        room checked
      rw [bind_eq, repeated, Node.stmt.inj same] at failed
      cases failed.symm.trans (discard_eq_ok.2 ⟨v, succeeded⟩)

/-- A loop lists what is found in it, and behind this itself if it is completed. -/
theorem lists_loop
    (inBody : ∀ s, ListsLoops (LoopRun.From setting (.block body) s) (evalBlock setting body) s)
    (inOther : ∀ s, ListsLoops (LoopRun.From setting (.otherwise otherwise) s)
      (evalOtherwise setting otherwise) s) (s : State σ) :
    ListsLoops (LoopRun.From setting (.node (.stmt (.loop kind condition body otherwise span))) s)
      (evalStmt setting (.loop kind condition body otherwise span)) s := by
  refine .of_discard ?_
  rw [discard_loop]
  refine .node fun room => ?_
  rw [← bind_assoc]
  have first : ListsLoops (fun _ => False)
      (tick setting.limits >>= fun _ => evalCheck setting kind condition) s.enter :=
    .nothing (fun _ => id)
      ((loopless_tick setting.limits).bind fun _ => loopless_check setting kind condition)
      ((growing_tick setting.limits).bind fun _ => (built_check setting kind condition).growing)
  have second : ∀ again s₂, (tick setting.limits >>= fun _ => evalCheck setting kind condition)
      s.enter = .ok again s₂ →
      ListsLoops (fun run => (again = true ∧
          run.At setting (.stmt (.loop kind condition body otherwise span)) s) ∨
          run.From setting (if again then .rounds kind condition body else .otherwise otherwise) s₂)
        (if again then do
            let n ← repeatRounds (evalRound setting kind condition body) setting.rounds 0
            emit (.loopFinished kind n)
          else evalOtherwise setting otherwise) s₂ := by
    intro again s₂ checked
    cases again with
    | false => exact (inOther s₂).congr fun run => (or_iff_right nofun).symm
    | true =>
        exact (lists_again inBody room checked).congr fun run =>
          or_congr_left (and_iff_right rfl).symm
  refine (first.bind second).congr fun run => ?_
  rw [LoopRun.from_inside_loop]
  constructor
  · rintro (⟨⟨⟩⟩ | ⟨again, s₂, checked, ⟨_, here⟩ | found⟩)
    · exact .inl here
    · exact .inr ⟨again, s₂, checked, found⟩
  · rintro (here | ⟨again, s₂, checked, found⟩)
    · obtain ⟨_, s₂, _, checked, _⟩ := here.completed.entered
      obtain ⟨rfl, rfl, _⟩ := Stmt.loop.inj (Node.stmt.inj here.node)
      exact .inr ⟨true, s₂, here.begun ▸ checked, .inl ⟨rfl, here⟩⟩
    · exact .inr ⟨again, s₂, checked, .inr found⟩

/-- The node of a branch lists what the branch does. -/
theorem lists_branch_node {b : Branch}
    (inBranch : ∀ s, ListsLoops (LoopRun.From setting (.branch b) s) (evalBranch setting b) s)
    (s : State σ) :
    ListsLoops (LoopRun.From setting (.node (.stmt (.branch b))) s)
      (evalStmt setting (.branch b)) s := by
  refine .of_discard ?_
  rw [discard_branch]
  refine .node fun room => ?_
  have first : ListsLoops (fun _ => False) (tick setting.limits : Eval σ Unit) s.enter :=
    .nothing (fun _ => id) (loopless_tick setting.limits) (growing_tick setting.limits)
  refine (first.bind fun _ s₁ _ => inBranch s₁).congr fun run => ?_
  rw [LoopRun.from_inside_branch]
  exact or_congr_left (iff_of_false id fun here => nomatch here.node)

end

section

variable (setting : Setting σ)

mutual

theorem lists_stmt : (stmt : Stmt) → (s : State σ) →
    ListsLoops (LoopRun.From setting (.node (.stmt stmt)) s) (evalStmt setting stmt) s
  | .assign target value span, s => by
      refine .nothing (fun run => LoopRun.not_from_plain trivial) ?_ (built_stmt setting _).growing
      rw [evalStmt]
      refine Loopless.nested ?_ _ _
      exact (loopless_expr setting value).bind fun v => (loopless_emit rfl).bind fun _ _ => rfl
  | .call name args span, s => by
      refine .nothing (fun run => LoopRun.not_from_plain trivial) ?_ (built_stmt setting _).growing
      rw [evalStmt]
      refine Loopless.nested ?_ _ _
      refine (loopless_callee _).bind fun f => (loopless_args setting args).bind fun values => ?_
      exact (loopless_emit rfl).bind fun _ => loopless_invoke setting.host f values
  | .loop _ _ body otherwise _, s => lists_loop (lists_block body) (lists_otherwise otherwise) s
  | .branch b, s => lists_branch_node (lists_branch b) s

theorem lists_block : (b : Block) → (s : State σ) →
    ListsLoops (LoopRun.From setting (.block b) s) (evalBlock setting b) s
  | .mk stmts span, s => by
      rw [evalBlock]
      exact (lists_stmts stmts s).congr fun run => LoopRun.from_block.symm

theorem lists_branch : (b : Branch) → (s : State σ) →
    ListsLoops (LoopRun.From setting (.branch b) s) (evalBranch setting b) s
  | .mk condition body otherwise span, s => by
      rw [evalBranch]
      have first : ListsLoops (fun _ => False) (evalCondition setting "if" condition) s :=
        .nothing (fun _ => id) (loopless_condition setting "if" condition)
          (built_condition setting "if" condition).growing
      have second : ∀ holds s₁, evalCondition setting "if" condition s = .ok holds s₁ →
          ListsLoops (LoopRun.From setting (if holds then .block body else .otherwise otherwise) s₁)
            (if holds then evalBlock setting body else evalOtherwise setting otherwise) s₁ := by
        intro holds s₁ _
        cases holds with
        | true => exact lists_block body s₁
        | false => exact lists_otherwise otherwise s₁
      refine (first.bind second).congr fun run => ?_
      rw [LoopRun.from_branch, false_or]

theorem lists_otherwise : (o : Otherwise) → (s : State σ) →
    ListsLoops (LoopRun.From setting (.otherwise o) s) (evalOtherwise setting o) s
  | .nothing, s => by
      rw [evalOtherwise]
      exact .nothing (fun run => LoopRun.from_otherwise_nothing) (fun _ => rfl) fun s => .refl s
  | .block body, s => by
      rw [evalOtherwise]
      exact (lists_block body s).congr fun run => LoopRun.from_otherwise_block.symm
  | .branch b, s => by
      rw [evalOtherwise]
      exact (lists_branch b s).congr fun run => LoopRun.from_otherwise_branch.symm

theorem lists_stmts : (ss : List Stmt) → (s : State σ) →
    ListsLoops (LoopRun.From setting (.stmts ss) s) (evalStmts setting ss) s
  | [], s => by
      rw [evalStmts]
      exact .nothing (fun run => LoopRun.from_stmts_nil) (fun _ => rfl) fun s => .refl s
  | stmt :: ss, s => by
      rw [evalStmts, discard_eq, bind_assoc]
      simp only [pure_bind]
      refine ((lists_stmt stmt s).bind fun _ s₁ _ => lists_stmts ss s₁).congr fun run => ?_
      exact LoopRun.from_stmts_cons.symm

end

end

end TinyScript
