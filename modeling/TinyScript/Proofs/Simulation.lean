import TinyScript.Proofs.Lockstep
import TinyScript.Proofs.Steps

/-!
# Simulations between runs

Two runs of one program, under different settings or from different states,
are compared step by step.  As long as both go on, their stores stay related
and everything else about their states is equal.  The first run may be cut
short, by an error that the second run does not meet; then what the first has
written stays behind what the second writes.
-/

namespace TinyScript

variable {σ τ α β : Type}

namespace State

def Grows (s t : State σ) : Prop := s.sink.Extends t.sink ∧ s.steps ≤ t.steps

theorem Grows.refl (s : State σ) : s.Grows s := ⟨.refl s.sink, Nat.le_refl _⟩

theorem Grows.trans {s t u : State σ} (first : s.Grows t) (second : t.Grows u) : s.Grows u :=
  ⟨first.1.trans second.1, Nat.le_trans first.2 second.2⟩

end State

namespace Eval

def Growing (p : Eval σ α) : Prop := ∀ s : State σ, s.Grows (final (p s))

theorem Growing.bind {p : Eval σ α} {f : α → Eval σ β} (first : Growing p)
    (next : ∀ x, Growing (f x)) : Growing (p >>= f) :=
  final_bind (R := State.Grows) .trans first next

theorem growing_tick (limits : Limits) : Growing (tick limits : Eval σ Unit) := by
  intro s
  rw [final_tick]
  exact ⟨.refl _, Nat.le_succ _⟩

theorem Growing.nested {p : Eval σ α} (inside : Growing p) (limits : Limits) (span : Span) :
    Growing (nested limits span p) := by
  intro s
  rw [nested_eq]
  split
  · exact .refl s
  · have grown := (growing_tick limits).bind (fun _ => inside) s.enter
    cases ran : (tick limits >>= fun _ => p) s.enter <;> rw [ran] at grown <;> exact grown

theorem Growing.repeatRounds {round : Eval σ Bool} (each : Growing round) (bound done : Nat) :
    Growing (repeatRounds round bound done) :=
  final_repeatRounds (R := State.Grows) .refl .trans each bound done

end Eval

open Eval

variable {reads : String → Span → Prop} {a : Setting σ} {b : Setting τ} {own : Option Span}

theorem Lockstep.growing {p : Eval σ α} {q : Eval τ α} (built : Lockstep reads a b own p q) :
    Growing q := by
  induction built with
  | pure x => exact fun s => .refl s
  | bind _ _ first next => exact first.bind next
  | fail _ => exact fun s => .refl s
  | reject span _ => exact fun s => .refl s
  | @lookup span name _ =>
      intro s
      rw [lookup_eq]
      cases s.env.get? name <;> exact .refl s
  | emit e => exact fun s => .refl s
  | assign name value => exact fun s => .refl s
  | invoke f args =>
      intro s
      rw [invoke_eq, final_ofExcept]
      exact ⟨s.store.extends_invoke b.host f args, Nat.le_refl _⟩
  | nested _ inside => exact inside.nested b.limits _
  | rounds _ _ _ runs checks decides =>
      refine Growing.repeatRounds (runs.bind fun _ => ?_) b.rounds 0
      exact (checks.nested b.limits _).bind decides

/-! ## Simulations -/

/--
How a run with setting `a` is followed by one with setting `b`.  Every step
keeps the stores related.  The budgets and the bound on rounds of the first
run are those of the second, or smaller; if they are smaller, then the error
of a budget that is used up is one that may cut the first run short.
-/
structure Simulation (reads : String → Span → Prop) (a : Setting σ) (b : Setting τ) where
  related : Store σ → Store τ → Prop
  /-- What may cut the first run short. -/
  cut : Halt → Prop
  /-- What a run that was cut short had written, against what the other run has written. -/
  behind : Sink → Sink → Prop
  behind_of_related : ∀ {x y}, related x y → behind x.sink y.sink
  behind_extends : ∀ {x y z}, behind x y → y.Extends z → behind x z
  lookup : ∀ {x y}, related x y → ∀ {name span}, reads name span →
    x.env.get? name = y.env.get? name
  assign : ∀ {x y}, related x y → ∀ name value, related (x.assign name value) (y.assign name value)
  invoke : ∀ {x y}, related x y → ∀ f args,
    ((x.invoke a.host f args).1 = (y.invoke b.host f args).1 ∧
      related (x.invoke a.host f args).2 (y.invoke b.host f args).2) ∨
    ∃ e, (x.invoke a.host f args).1 = .error e ∧ cut (.failed e) ∧
      behind (x.invoke a.host f args).2.sink (y.invoke b.host f args).2.sink
  flush : ∀ {x y}, related x y → x.sink.flush = y.sink.flush
  depth : a.limits.maxDepth = b.limits.maxDepth ∨
    a.limits.maxDepth ≤ b.limits.maxDepth ∧ cut (.failed (.stackOverflow a.limits.maxDepth))
  steps : a.limits.maxSteps = b.limits.maxSteps ∨ ∃ n, a.limits.maxSteps = some n ∧
    (∀ m, b.limits.maxSteps = some m → n ≤ m) ∧ cut (.failed (.stepLimitExceeded n))
  rounds : a.rounds = b.rounds ∨ a.rounds ≤ b.rounds ∧ cut .unfinished

namespace Simulation

structure Related (sim : Simulation reads a b) (s : State σ) (t : State τ) : Prop where
  store : sim.related s.store t.store
  steps : s.steps = t.steps
  depth : s.depth = t.depth
  errorSpan : s.errorSpan = t.errorSpan
  events : s.events = t.events

/-- The outcome of the first run against that of the second: the same, or cut short. -/
inductive Follows (sim : Simulation reads a b) :
    EStateM.Result Halt (State σ) α → EStateM.Result Halt (State τ) α → Prop where
  | ok {x : α} {s : State σ} {t : State τ} (related : sim.Related s t) :
      Follows sim (.ok x s) (.ok x t)
  | error {halt : Halt} {s : State σ} {t : State τ} (related : sim.Related s t) :
      Follows sim (.error halt s) (.error halt t)
  | cut {halt : Halt} {s : State σ} {r : EStateM.Result Halt (State τ) α} (short : sim.cut halt)
      (behind : sim.behind s.sink (final r).sink) (steps : s.steps ≤ (final r).steps) :
      Follows sim (.error halt s) r

variable {sim : Simulation reads a b} {s : State σ} {t : State τ}

/-- A run that is cut short at once is behind everything that the other run does. -/
theorem Related.cut (related : sim.Related s t) {halt : Halt} (short : sim.cut halt) (s' : State σ)
    (sink : s'.sink = s.sink) (steps : s'.steps = s.steps) {r : EStateM.Result Halt (State τ) α}
    (grown : t.Grows (final r)) : sim.Follows (.error halt s') r := by
  refine .cut short ?_ ?_
  · rw [sink]
    exact sim.behind_extends (sim.behind_of_related related.store) grown.1
  · rw [steps, related.steps]
    exact grown.2

theorem Follows.bind {p : Eval σ α} {q : Eval τ α} {f : α → Eval σ β} {g : α → Eval τ β}
    (first : sim.Follows (p s) (q t)) (growing : ∀ x, Growing (g x))
    (next : ∀ x {s t}, sim.Related s t → sim.Follows (f x s) (g x t)) :
    sim.Follows ((p >>= f) s) ((q >>= g) t) := by
  rw [bind_eq, bind_eq]
  generalize p s = r at first
  generalize q t = r' at first
  cases first with
  | ok related => exact next _ related
  | error related => exact .error related
  | cut short behind steps =>
      cases r' with
      | ok x t' =>
          have grown := growing x t'
          exact .cut short (sim.behind_extends behind grown.1) (Nat.le_trans steps grown.2)
      | error halt t' => exact .cut short behind steps

/-- Leaving a node changes nothing that matters to a run cut short. -/
theorem Follows.leave {r : EStateM.Result Halt (State σ) α} {r' : EStateM.Result Halt (State τ) α}
    (follows : sim.Follows r r') (span : Span) :
    sim.Follows (leave span r) (leave span r') := by
  cases follows with
  | ok related =>
      exact .ok ⟨related.store, related.steps, congrArg (· - 1) related.depth, related.errorSpan,
        related.events⟩
  | error related =>
      exact .error ⟨related.store, related.steps, congrArg (· - 1) related.depth,
        congrArg (Option.or · (some span)) related.errorSpan, related.events⟩
  | cut short behind steps => cases r' <;> exact .cut short behind steps

theorem Related.count (related : sim.Related s t) : sim.Related s.count t.count :=
  ⟨related.store, congrArg (· + 1) related.steps, related.depth, related.errorSpan, related.events⟩

theorem Related.locate (related : sim.Related s t) (span : Span) :
    sim.Related (s.locate span) (t.locate span) :=
  ⟨related.store, related.steps, related.depth,
    congrArg (Option.or · (some span)) related.errorSpan, related.events⟩

theorem Related.tick (related : sim.Related s t) :
    sim.Follows (tick a.limits s) (tick b.limits t) := by
  rcases sim.steps with same | ⟨n, limited, le, short⟩
  · rw [tick_eq, tick_eq, same, related.steps]
    cases b.limits.maxSteps with
    | none => exact .ok related.count
    | some limit =>
        dsimp only
        split
        · exact .error related.count
        · exact .ok related.count
  · rw [tick_eq a.limits, limited]
    dsimp only
    split
    · have counted : t.count.Grows (final (Eval.tick b.limits t)) := by
        rw [final_tick]
        exact .refl t.count
      exact related.count.cut short s.count rfl rfl counted
    · next within =>
        have within' : Eval.tick b.limits t = .ok () t.count := by
          rw [tick_eq]
          cases larger : b.limits.maxSteps with
          | none => rfl
          | some m =>
              have bound := le m larger
              have steps := related.steps
              dsimp only
              rw [if_neg (by omega)]
        rw [within']
        exact .ok related.count

theorem Related.nested (related : sim.Related s t) {p : Eval σ α} {q : Eval τ α}
    (growing : Growing q) (inside : ∀ {s t}, sim.Related s t → sim.Follows (p s) (q t))
    (span : Span) : sim.Follows (nested a.limits span p s) (nested b.limits span q t) := by
  by_cases full : a.limits.maxDepth ≤ s.depth
  · rcases sim.depth with same | ⟨_, short⟩
    · have full' : b.limits.maxDepth ≤ t.depth := by
        rw [← same, ← related.depth]
        exact full
      rw [nested_eq, nested_eq, if_pos full, if_pos full', same]
      exact .error (related.locate span)
    · rw [nested_eq a.limits, if_pos full]
      exact related.cut short (s.locate span) rfl rfl (growing.nested b.limits span t)
  · have free : ¬ b.limits.maxDepth ≤ t.depth := by
      have level := related.depth
      rcases sim.depth with same | ⟨le, _⟩ <;> omega
    have deeper : sim.Related s.enter t.enter :=
      ⟨related.store, related.steps, congrArg (· + 1) related.depth, related.errorSpan,
        related.events⟩
    rw [nested_eq, nested_eq, if_neg full, if_neg free]
    exact (deeper.tick.bind (fun _ => growing) fun _ => inside).leave span

theorem Related.repeatRounds {p : Eval σ Bool} {q : Eval τ Bool} (growing : Growing q)
    (each : ∀ {s t}, sim.Related s t → sim.Follows (p s) (q t)) {n m : Nat}
    (enough : n = m ∨ n ≤ m ∧ sim.cut .unfinished) (done : Nat) (related : sim.Related s t) :
    sim.Follows (repeatRounds p n done s) (repeatRounds q m done t) := by
  induction n generalizing m done s t with
  | zero =>
      rcases enough with rfl | ⟨_, short⟩
      · exact .error related
      · exact related.cut short s rfl rfl (growing.repeatRounds m done t)
  | succ n ih =>
      obtain ⟨m, rfl⟩ : ∃ m', m = m' + 1 := by
        refine Nat.exists_eq_succ_of_ne_zero ?_
        rcases enough with rfl | ⟨le, _⟩ <;> omega
      rw [Eval.repeatRounds, Eval.repeatRounds]
      refine (each related).bind (fun again => ?_) fun again {s t} related => ?_
      · cases again with
        | true => exact growing.repeatRounds m (done + 1)
        | false => exact fun t => .refl t
      · cases again with
        | true =>
            have enough' := enough.imp Nat.succ.inj (And.imp_left Nat.le_of_succ_le_succ)
            exact ih enough' (done + 1) related
        | false => exact .ok related

theorem Related.log (related : sim.Related s t) (e : Event) :
    sim.Related (s.log e) (t.log e) :=
  ⟨related.store, related.steps, related.depth, related.errorSpan,
    congrArg (Array.push · e) related.events⟩

/-- Evaluations in lockstep follow each other from related states. -/
theorem follows (sim : Simulation reads a b) {p : Eval σ α} {q : Eval τ α}
    (built : Lockstep reads a b own p q) {s : State σ} {t : State τ} (related : sim.Related s t) :
    sim.Follows (p s) (q t) := by
  induction built generalizing s t with
  | pure x => exact .ok related
  | bind _ next ih ihNext => exact (ih related).bind (fun x => (next x).growing) ihNext
  | fail _ => exact .error related
  | reject span _ => exact .error (related.locate span)
  | @lookup span name mentioned =>
      have same : s.env.get? name = t.env.get? name := sim.lookup related.store mentioned
      rw [lookup_eq, lookup_eq, same]
      cases t.env.get? name with
      | some value => exact .ok related
      | none => exact .error related
  | emit e => exact .ok (related.log e)
  | assign name value =>
      exact .ok ⟨sim.assign related.store name value, related.steps, related.depth,
        related.errorSpan, related.events⟩
  | invoke f args =>
      rw [invoke_eq, invoke_eq]
      rcases sim.invoke related.store f args with ⟨same, stores⟩ | ⟨e, failed, short, behind⟩
      · have after : sim.Related (s.withStore (s.store.invoke a.host f args).2)
            (t.withStore (t.store.invoke b.host f args).2) :=
          ⟨stores, related.steps, related.depth, related.errorSpan, related.events⟩
        rw [same]
        cases (t.store.invoke b.host f args).1 with
        | ok result => exact .ok after
        | error e => exact .error after
      · rw [failed]
        refine .cut short ?_ ?_
        · rw [final_ofExcept]
          exact behind
        · rw [final_ofExcept]
          exact Nat.le_of_eq related.steps
  | nested inside ih => exact related.nested inside.growing ih _
  | rounds runs checks decides ihRuns ihChecks ihDecides =>
      refine related.repeatRounds ?_ ?_ sim.rounds 0
      · exact runs.growing.bind fun _ =>
          (checks.growing.nested b.limits _).bind fun v => (decides v).growing
      · intro s t related
        refine (ihRuns related).bind (fun _ => ?_) fun _ {s t} related => ?_
        · exact (checks.growing.nested b.limits _).bind fun v => (decides v).growing
        · exact (related.nested checks.growing ihChecks _).bind
            (fun v => (decides v).growing) ihDecides

/-- If no error cuts the first run short and it ends, then the other ends, with the same result. -/
theorem Follows.of_outcome (uncut : ∀ e, ¬ sim.cut (.failed e)) {result : Except EvalError α}
    {r : EStateM.Result Halt (State τ) α} (follows : sim.Follows (outcome result s) r) :
    ∃ t, r = outcome result t ∧ sim.Related s t := by
  cases result with
  | ok a =>
      cases follows with
      | ok related => exact ⟨_, rfl, related⟩
  | error e =>
      cases follows with
      | error related => exact ⟨_, rfl, related⟩
      | cut short => exact absurd short (uncut _)

theorem Follows.conclude {r : EStateM.Result Halt (State σ) Unit}
    {r' : EStateM.Result Halt (State τ) Unit} (follows : sim.Follows r r') :
    sim.Follows (conclude r) (conclude r') := by
  cases follows with
  | @ok x s t related =>
      have same : s.sink.flush = t.sink.flush := sim.flush related.store
      rw [Eval.conclude, Eval.conclude, same, related.steps]
      cases t.sink.flush with
      | ok u => exact .ok (related.log _)
      | error e => exact .error (related.log _)
  | @error halt s t related =>
      cases halt with
      | failed e =>
          rw [Eval.conclude, Eval.conclude, related.steps]
          exact .error (related.log _)
      | unfinished => exact .error related
  | @cut halt s r' short behind steps =>
      obtain ⟨sink, counted, _⟩ := final_conclude r'
      rw [← sink] at behind
      rw [← counted] at steps
      cases halt <;> exact .cut short behind steps

/-- Whole programs follow each other from related states. -/
theorem program (sim : Simulation reads a b) {program : Program}
    (mentioned : ∀ m ∈ program.mentions, reads m.1 m.2) {s : State σ} {t : State τ}
    (related : sim.Related s t) :
    sim.Follows (evalProgram a program s) (evalProgram b program t) := by
  have ready : sim.Related (begin program s) (begin program t) :=
    ⟨related.store, related.steps, related.depth, rfl, (related.log _).events⟩
  rw [evalProgram_eq, evalProgram_eq]
  exact (sim.follows (lockstep_stmts program.stmts mentioned none) ready).conclude

end Simulation

end TinyScript
