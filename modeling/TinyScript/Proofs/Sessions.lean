import TinyScript.Proofs.VisitedNodes

/-!
# Sessions

One state may serve many calls: whole programs, blocks, statements and
expressions, with changes by the host between them.  Whatever the calls were
and however they ended, they leave nothing behind that the next program could
notice, apart from what they did to the names, the sink, the host and the
number of visited nodes: the counter of levels is back at zero, the place of
an earlier error is forgotten, and the log is never read.
-/

namespace TinyScript

open Eval

variable {σ α β : Type}

def State.following (s : State σ) (earlier : Array Event) : State σ :=
  { s with events := earlier ++ s.events }

namespace Eval

def following (earlier : Array Event) :
    EStateM.Result Halt (State σ) α → EStateM.Result Halt (State σ) α
  | .ok a s => .ok a (s.following earlier)
  | .error halt s => .error halt (s.following earlier)

/-- Earlier events stay in front of the log and change nothing else. -/
def Unaware (p : Eval σ α) : Prop :=
  ∀ (earlier : Array Event) (s : State σ), p (s.following earlier) = following earlier (p s)

theorem Unaware.bind {p : Eval σ α} {f : α → Eval σ β} (first : Unaware p)
    (next : ∀ a, Unaware (f a)) : Unaware (p >>= f) := by
  intro earlier s
  rw [bind_eq, bind_eq, first earlier s]
  cases p s with
  | ok a s' => exact next a earlier s'
  | error halt s' => rfl

theorem unaware_tick (limits : Limits) : Unaware (tick limits : Eval σ Unit) := by
  intro earlier s
  rw [tick_eq, tick_eq]
  cases limits.maxSteps with
  | none => rfl
  | some limit =>
      dsimp only
      by_cases exceeded : limit < s.steps + 1
      · rw [if_pos exceeded, if_pos (show limit < (s.following earlier).steps + 1 from exceeded)]
        rfl
      · rw [if_neg exceeded, if_neg (show ¬ limit < (s.following earlier).steps + 1 from exceeded)]
        rfl

theorem Unaware.nested {p : Eval σ α} (inside : Unaware p) (limits : Limits) (span : Span) :
    Unaware (nested limits span p) := by
  intro earlier s
  rw [nested_eq, nested_eq]
  by_cases full : limits.maxDepth ≤ s.depth
  · rw [if_pos full, if_pos (show limits.maxDepth ≤ (s.following earlier).depth from full)]
    rfl
  · rw [if_neg full, if_neg (show ¬ limits.maxDepth ≤ (s.following earlier).depth from full)]
    have same := (unaware_tick limits).bind (fun _ => inside) earlier s.enter
    change leave span ((tick limits >>= fun _ => p) (s.enter.following earlier)) = _
    rw [same]
    cases (tick limits >>= fun _ => p) s.enter <;> rfl

theorem Unaware.repeatRounds {round : Eval σ Bool} (each : Unaware round) (bound done : Nat) :
    Unaware (repeatRounds round bound done) := by
  induction bound generalizing done with
  | zero => exact fun _ _ => rfl
  | succ bound ih =>
      rw [Eval.repeatRounds]
      refine each.bind fun again => ?_
      cases again with
      | true => exact ih (done + 1)
      | false => exact fun _ _ => rfl

end Eval

theorem State.following_log (s : State σ) (earlier : Array Event) (e : Event) :
    (s.following earlier).log e = (s.log e).following earlier := by
  rw [State.following, State.following, State.log, State.log, Array.append_push]

theorem Lockstep.unaware {reads : String → Span → Prop} {setting other : Setting σ}
    {own : Option Span} {p q : Eval σ α} (built : Lockstep reads setting other own p q) :
    Unaware p := by
  induction built with
  | pure x => exact fun _ _ => rfl
  | bind _ _ first next => exact first.bind next
  | fail _ => exact fun _ _ => rfl
  | reject span _ => exact fun _ _ => rfl
  | @lookup span name _ =>
      intro earlier s
      rw [lookup_eq, lookup_eq]
      have same : (s.following earlier).env = s.env := rfl
      rw [same]
      cases s.env.get? name <;> rfl
  | emit e =>
      intro earlier s
      exact congrArg (EStateM.Result.ok ()) (s.following_log earlier e)
  | assign name value => exact fun _ _ => rfl
  | invoke f args =>
      intro earlier s
      rw [invoke_eq, invoke_eq]
      change Eval.ofExcept (s.store.invoke setting.host f args).1
        ((s.withStore (s.store.invoke setting.host f args).2).following earlier) = _
      cases (s.store.invoke setting.host f args).1 <;> rfl
  | nested _ inside => exact inside.nested setting.limits _
  | rounds _ _ _ runs checks decides =>
      refine Unaware.repeatRounds (runs.bind fun _ => ?_) setting.rounds 0
      exact (checks.nested setting.limits _).bind decides

theorem conclude_following (earlier : Array Event) (r : EStateM.Result Halt (State σ) Unit) :
    conclude (following earlier r) = following earlier (conclude r) := by
  cases r with
  | ok u s =>
      change conclude (.ok () (s.following earlier)) = following earlier (conclude (.ok () s))
      have same : (s.following earlier).sink = s.sink := rfl
      rw [conclude, conclude, same]
      cases s.sink.flush with
      | ok u => exact congrArg (EStateM.Result.ok ()) (s.following_log earlier _)
      | error e => exact congrArg (EStateM.Result.error _) (s.following_log earlier _)
  | error halt s =>
      cases halt with
      | failed e => exact congrArg (EStateM.Result.error _) (s.following_log earlier _)
      | unfinished => rfl

/-- A state without the place of an earlier error and without a log. -/
def State.cleared (s : State σ) : State σ := { s with errorSpan := none, events := #[] }

/-- A program does what it does without an earlier error and an earlier log. -/
theorem evalProgram_cleared (setting : Setting σ) (program : Program) (s : State σ) :
    evalProgram setting program s = following s.events (evalProgram setting program s.cleared) := by
  have unaware := (built_stmts setting program.stmts).unaware
  have begun : begin program s = (begin program s.cleared).following s.events := by
    simp [begin, State.cleared, State.following, State.log]
  rw [evalProgram_eq, evalProgram_eq, begun, unaware, conclude_following]

/-- A fresh state with the names, the sink, the host and the number of visited nodes of another. -/
def State.fresh (s : State σ) : State σ :=
  { env := s.env, sink := s.sink, host := s.host, steps := s.steps }

/-- Outside of all nodes a program does what it does in a fresh state. -/
theorem evalProgram_fresh {s : State σ} (outside : s.depth = 0) (setting : Setting σ)
    (program : Program) :
    evalProgram setting program s = following s.events (evalProgram setting program s.fresh) := by
  have same : s.fresh = s.cleared := by rw [State.fresh, State.cleared, outside]
  rw [same, evalProgram_cleared]

theorem following_eq_outcome_iff {earlier : Array Event} {r : EStateM.Result Halt (State σ) α}
    {result : Except EvalError α} {s : State σ} :
    following earlier r = outcome result s ↔
      ∃ t, r = outcome result t ∧ s = t.following earlier := by
  constructor
  · intro same
    cases r with
    | ok a t =>
        cases result <;> cases same
        exact ⟨t, rfl, rfl⟩
    | error halt t =>
        cases result <;> cases same
        exact ⟨t, rfl, rfl⟩
  · rintro ⟨t, rfl, rfl⟩
    cases result <;> rfl

/-- What a host may ask a state to evaluate. -/
inductive Call where
  | program (p : Program)
  | block (b : Block)
  | stmt (s : Stmt)
  | expr (e : Expr)

namespace Call

def run (setting : Setting σ) : Call → Eval σ Unit
  | program p => evalProgram setting p
  | block b => evalBlock setting b
  | stmt s => discard (evalStmt setting s)
  | expr e => discard (evalExpr setting e)

def focus : Call → Focus
  | program p => .stmts p.stmts
  | block b => .block b
  | stmt s => .node (.stmt s)
  | expr e => .node (.expr e)

def start (s : State σ) : Call → State σ
  | program p => begin p s
  | _ => s

/-- A state occurs during a call. -/
def During (setting : Setting σ) (call : Call) (s t : State σ) : Prop :=
  ∃ point, Relation.ReflTransGen (Comes setting) (call.focus, call.start s) (point, t)

theorem balanced_run (setting : Setting σ) (call : Call) : Balanced (call.run setting) := by
  cases call with
  | program p =>
      intro s
      have kept := (built_stmts setting p.stmts).balanced (begin p s)
      obtain ⟨_, _, same⟩ := final_conclude (evalStmts setting p.stmts (begin p s))
      rw [run, evalProgram_eq, same, kept]
      rfl
  | block b => exact (built_block setting b).balanced
  | stmt s => exact (built_stmt setting s).balanced.bind fun _ _ => rfl
  | expr e => exact (built_expr setting e).balanced.bind fun _ _ => rfl

theorem accounts_run (setting : Setting σ) (call : Call) (s : State σ) (count : Nat)
    (low : s.steps ≤ count) (high : count < (final (call.run setting s)).steps) :
    Visited setting call.focus (call.start s) count := by
  cases call with
  | program p =>
      obtain ⟨_, same, _⟩ := final_conclude (evalStmts setting p.stmts (begin p s))
      rw [run, evalProgram_eq, same] at high
      exact accounts_stmts setting p.stmts (begin p s) count low high
  | block b => exact accounts_block setting b s count low high
  | stmt stmt =>
      exact (accounts_stmt setting stmt).quiet (fun _ _ => rfl) s count low high
  | expr e => exact (accounts_expr setting e).quiet (fun _ _ => rfl) s count low high

end Call

/-! ## Sessions -/

/--
The states of a session, under given budgets and functions of the host.  It
begins with a fresh state.  Between calls the host may change the names, the
sink and its own state.  A call may succeed or fail.
-/
inductive Session (host : Host σ) (limits : Limits) : State σ → Prop where
  | fresh (sink : Sink) (state : σ) : Session host limits { sink, host := state }
  | changed {s : State σ} (before : Session host limits s) (x : Store σ) :
      Session host limits (s.withStore x)
  | called {s s' : State σ} (before : Session host limits s) (call : Call) {rounds : Nat}
      {result : Except EvalError Unit}
      (ended : call.run ⟨host, limits, rounds⟩ s = outcome result s') : Session host limits s'

theorem Session.depth_eq_zero {host : Host σ} {limits : Limits} {s : State σ}
    (session : Session host limits s) : s.depth = 0 := by
  induction session with
  | fresh sink state => rfl
  | changed _ x ih => exact ih
  | @called s s' _ call rounds result ended ih =>
      have kept := call.balanced_run ⟨host, limits, rounds⟩ s
      rw [ended, final_outcome] at kept
      exact kept.trans ih

/--
No call of a session poisons the state, however it ends.  Between calls the
counter of levels is zero.  During any call it does not exceed the limit, and
the states during a call include one for every node that the call visits.  So
the next program ends with the same result, and in the same state but for the
earlier part of the log, as in a fresh state with the same names, sink, host
and number of visited nodes.
-/
theorem session_unpoisoned {host : Host σ} {limits : Limits} {s : State σ}
    (session : Session host limits s) :
    s.depth = 0 ∧
    (∀ rounds (call : Call),
      (∀ t, call.During ⟨host, limits, rounds⟩ s t → t.depth ≤ limits.maxDepth) ∧
      ∀ count, s.steps ≤ count → count < (final (call.run ⟨host, limits, rounds⟩ s)).steps →
        ∃ t, call.During ⟨host, limits, rounds⟩ s t ∧ t.steps = count) ∧
    ∀ program result s', Ends host limits program s result s' ↔
      ∃ t, Ends host limits program s.fresh result t ∧ s' = t.following s.events := by
  have outside := session.depth_eq_zero
  refine ⟨outside, fun rounds call => ⟨?_, ?_⟩, fun program result s' => ⟨?_, ?_⟩⟩
  · rintro t ⟨point, comes⟩
    have begun : (call.start s).depth = 0 := by cases call <;> exact outside
    exact depth_le_of_comes comes (begun ▸ Nat.zero_le limits.maxDepth)
  · intro count low high
    obtain ⟨n, t, comes, counted⟩ := call.accounts_run _ s count low high
    exact ⟨t, ⟨_, comes⟩, counted⟩
  · rintro ⟨rounds, ended⟩
    rw [evalProgram_fresh outside, following_eq_outcome_iff] at ended
    obtain ⟨t, ran, same⟩ := ended
    exact ⟨t, ⟨rounds, ran⟩, same⟩
  · rintro ⟨t, ⟨rounds, ran⟩, same⟩
    refine ⟨rounds, ?_⟩
    rw [evalProgram_fresh outside, following_eq_outcome_iff]
    exact ⟨t, ran, same⟩

def rejectedLoop : Call :=
  let span : Span := default
  .stmt (.loop .whileTrue (.call ⟨"more", span⟩ [] span)
    (.mk [.loop .whileTrue (.call ⟨"count", span⟩ [] span) (.mk [] span) .nothing span] span)
    .nothing span)

def deepCall : Call :=
  let span : Span := default
  .expr (.paren (.paren (.paren (.call ⟨"count", span⟩ [] span) span) span) span)

/-- A state after two calls that failed: one within two loops, one on a level too deep. -/
def failedState : State Catalogue :=
  let setting : Setting Catalogue := ⟨Catalogue.host, { maxDepth := 3 }, 4⟩
  final (deepCall.run setting (final (rejectedLoop.run setting guardedState)))

/-- After the failed calls a loop ends as in a fresh state. -/
theorem session_unpoisoned_guardedLoop :
    Session Catalogue.host { maxDepth := 3 } failedState ∧ failedState.errorSpan = some default ∧
      failedState.depth = 0 ∧ ∃ s t,
        Ends Catalogue.host { maxDepth := 3 } guardedLoop failedState (.ok ()) s ∧
        Ends Catalogue.host { maxDepth := 3 } guardedLoop failedState.fresh (.ok ()) t ∧
        s = t.following failedState.events ∧ s.sink.written.data = "2\n".toUTF8.data := by
  have started : Session Catalogue.host { maxDepth := 3 } guardedState :=
    (Session.fresh {} []).changed guardedState.store
  have rejected := started.called rejectedLoop (@eq_outcome_of_result _ _
    (rejectedLoop.run ⟨Catalogue.host, { maxDepth := 3 }, 4⟩ guardedState)
    (.error (.notBoolean "`while` condition: expected boolean, got integer")) (by decide +kernel))
  have session : Session Catalogue.host { maxDepth := 3 } failedState :=
    rejected.called deepCall (@eq_outcome_of_result _ _
      (deepCall.run ⟨Catalogue.host, { maxDepth := 3 }, 4⟩ _) (.error (.stackOverflow 3))
      (by decide +kernel))
  have ended : Ends Catalogue.host { maxDepth := 3 } guardedLoop failedState (.ok ()) _ :=
    @ends_of_result _ _ _ 4 _ _ _ (by decide +kernel)
  obtain ⟨depth, _, next⟩ := session_unpoisoned session
  obtain ⟨t, again, same⟩ := (next _ _ _).1 ended
  exact ⟨session, by decide +kernel, depth, _, t, ended, again, same, by decide +kernel⟩

end TinyScript
