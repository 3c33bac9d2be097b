import TinyScript.Proofs.Semantics

/-!
# Implementing rules

Evaluations, one for each bound on the rounds of loops, against rules that
take a store to a result and a store.  Each way of putting evaluations
together implements a way of putting rules together: one after another, a node
around its inside, round after round.
-/

namespace TinyScript

open Eval

variable {σ α β : Type}

theorem rules_ext {rules rules' : Store σ → Except EvalError α → Store σ → Prop}
    (same : ∀ x result y, rules x result y ↔ rules' x result y) : rules = rules' := by
  funext x result y
  exact propext (same x result y)

theorem Eval.outcome_inj {result result' : Except EvalError α} {s s' : State σ}
    (same : outcome result s = outcome result' s') : result = result' ∧ s = s' := by
  cases result <;> cases result' <;> cases same <;> exact ⟨rfl, rfl⟩

/-- A node that the budgets admit is entered, counted and left. -/
theorem Eval.nested_within {limits : Limits} {s : State σ} (room : s.depth < limits.maxDepth)
    (unspent : ∀ limit, limits.maxSteps = some limit → s.steps < limit) (span : Span)
    (p : Eval σ α) : nested limits span p s = leave span (p s.enter.count) := by
  rw [nested_eq, if_neg (Nat.not_le_of_lt room), bind_eq, tick_eq]
  cases limited : limits.maxSteps with
  | none => rfl
  | some limit =>
      have within : ¬ limit < s.enter.steps + 1 := Nat.not_lt.2 (unspent limit limited)
      dsimp only
      rw [if_neg within]

/-- A node whose visit is one too many is counted all the same. -/
theorem Eval.nested_spent {limits : Limits} {s : State σ} (room : s.depth < limits.maxDepth)
    {limit : Nat} (limited : limits.maxSteps = some limit) (spent : limit ≤ s.steps) (span : Span)
    (p : Eval σ α) :
    nested limits span p s =
      .error (.failed (.stepLimitExceeded limit)) (s.count.locate span) := by
  have exceeded : limit < s.enter.steps + 1 := Nat.lt_succ_of_le spent
  rw [nested_eq, if_neg (Nat.not_le_of_lt room), bind_eq, tick_eq, limited]
  dsimp only
  rw [if_pos exceeded]
  rfl

/-- Visiting a node without a step limit, where there is room for it. -/
theorem Eval.nested_unlimited {limits : Limits} (unlimited : limits.maxSteps = none)
    {s : State σ} (room : s.depth < limits.maxDepth) (span : Span) (p : Eval σ α) :
    nested limits span p s = leave span (p s.enter.count) :=
  nested_within room (fun limit limited => by rw [unlimited] at limited; cases limited) span p

/-- Leaving a node changes neither the result nor the store. -/
theorem Eval.leave_outcome (span : Span) (result : Except EvalError α) (s : State σ) :
    ∃ s', leave span (outcome result s) = outcome result s' ∧ s'.store = s.store ∧
      s'.depth = s.depth - 1 := by
  cases result <;> exact ⟨_, rfl, rfl, rfl⟩

theorem Eval.of_leave {span : Span} {r : EStateM.Result Halt (State σ) α}
    {result : Except EvalError α} {s' : State σ} (left : leave span r = outcome result s') :
    ∃ s, r = outcome result s ∧ s'.store = s.store ∧ s'.depth = s.depth - 1 := by
  cases result with
  | ok a =>
      cases r <;> cases left
      exact ⟨_, rfl, rfl, rfl⟩
  | error e =>
      cases r <;> cases left
      exact ⟨_, rfl, rfl, rfl⟩

/--
Evaluations, one for each bound on the rounds of loops, implement rules.  With
room for their levels, they end only in ways that the rules derive, on the
level where they began; and in all of these ways, once the bound is large
enough for the derivation.
-/
structure Implements (limits : Limits) (levels : Nat) (p : Nat → Eval σ α)
    (rules : Store σ → Except EvalError α → Store σ → Prop) : Prop where
  sound {rounds : Nat} {s s' : State σ} {result : Except EvalError α}
    (room : s.depth + levels ≤ limits.maxDepth) (ended : p rounds s = outcome result s') :
    s'.depth = s.depth ∧ rules s.store result s'.store
  complete {x y : Store σ} {result : Except EvalError α} (derived : rules x result y) :
    ∃ least, ∀ rounds, least ≤ rounds → ∀ s : State σ, s.store = x →
      s.depth + levels ≤ limits.maxDepth → ∃ s', p rounds s = outcome result s' ∧ s'.store = y

inductive Then {X ε : Type} (first : X → Except ε α → X → Prop)
    (next : α → X → Except ε β → X → Prop) : X → Except ε β → X → Prop where
  | failed {x y : X} {e : ε} (ran : first x (.error e) y) : Then first next x (.error e) y
  | next {x y z : X} {a : α} {result : Except ε β} (ran : first x (.ok a) y)
      (continued : next a y result z) : Then first next x result z

namespace Implements

variable {limits : Limits} {levels : Nat} {p : Nat → Eval σ α}
  {rules rules' : Store σ → Except EvalError α → Store σ → Prop}

theorem congr (same : ∀ x result y, rules x result y ↔ rules' x result y)
    (implemented : Implements limits levels p rules) : Implements limits levels p rules' :=
  rules_ext same ▸ implemented

theorem mono {more : Nat} (le : levels ≤ more) (implemented : Implements limits levels p rules) :
    Implements limits more p rules where
  sound room ended := implemented.sound (by omega) ended
  complete derived := by
    obtain ⟨least, ends⟩ := implemented.complete derived
    exact ⟨least, fun rounds enough s store room => ends rounds enough s store (by omega)⟩

/-- A step that always ends implements its effect on the store. -/
theorem step (effect : Store σ → Except EvalError α × Store σ)
    (does : ∀ rounds s, ∃ s', p rounds s = outcome (effect s.store).1 s' ∧
      s'.store = (effect s.store).2 ∧ s'.depth = s.depth) :
    Implements limits levels p fun x result y => effect x = (result, y) where
  sound {rounds s _ _} room ended := by
    obtain ⟨s₁, ran, store, depth⟩ := does rounds s
    obtain ⟨rfl, rfl⟩ := outcome_inj (ran.symm.trans ended)
    exact ⟨depth, Prod.ext rfl store.symm⟩
  complete {x _ _} derived := by
    refine ⟨0, fun rounds _ s store _ => ?_⟩
    obtain ⟨s', ran, store', _⟩ := does rounds s
    rw [store, derived] at ran store'
    exact ⟨s', ran, store'⟩

/-- A step that only reads the environment implements its rules, if they derive one result. -/
theorem reading (rule : Environment → Except EvalError α → Prop)
    (does : ∀ rounds s, ∃ result, p rounds s = outcome result s ∧ rule s.env result)
    (unique : ∀ {env result result'}, rule env result → rule env result' → result = result') :
    Implements limits levels p fun x result y => rule x.env result ∧ x = y where
  sound {rounds s _ _} room ended := by
    obtain ⟨result, ran, derived⟩ := does rounds s
    obtain ⟨rfl, rfl⟩ := outcome_inj (ran.symm.trans ended)
    exact ⟨rfl, derived, rfl⟩
  complete := by
    rintro x _ result ⟨derived, rfl⟩
    refine ⟨0, fun rounds _ s store _ => ?_⟩
    subst store
    obtain ⟨result', ran, derived'⟩ := does rounds s
    rw [unique derived' derived] at ran
    exact ⟨s, ran, rfl⟩

theorem bind {f : Nat → α → Eval σ β} {next : α → Store σ → Except EvalError β → Store σ → Prop}
    (first : Implements limits levels p rules)
    (second : ∀ a, Implements limits levels (fun rounds => f rounds a) (next a)) :
    Implements limits levels (fun rounds => p rounds >>= f rounds) (Then rules next) where
  sound {rounds s s' result} room ended := by
    rw [bind_eq] at ended
    cases ran : p rounds s with
    | ok a s₁ =>
        rw [ran] at ended
        obtain ⟨depth, derived⟩ := @first.sound rounds s s₁ (.ok a) room ran
        rw [← depth] at room
        obtain ⟨depth', derived'⟩ := (second a).sound room ended
        exact ⟨depth'.trans depth, .next derived derived'⟩
    | error halt s₁ =>
        rw [ran] at ended
        cases result with
        | ok b => cases ended
        | error e =>
            cases ended
            obtain ⟨depth, derived⟩ := @first.sound rounds s s' (.error e) room ran
            exact ⟨depth, .failed derived⟩
  complete {x y result} derived := by
    cases derived with
    | failed ran =>
        obtain ⟨least, ends⟩ := first.complete ran
        refine ⟨least, fun rounds enough s store room => ?_⟩
        obtain ⟨s', ran, store'⟩ := ends rounds enough s store room
        refine ⟨s', ?_, store'⟩
        rw [bind_eq, ran]
        rfl
    | next ran continued =>
        obtain ⟨least, ends⟩ := first.complete ran
        obtain ⟨least', ends'⟩ := (second _).complete continued
        refine ⟨max least least', fun rounds enough s store room => ?_⟩
        obtain ⟨s₁, ran, store₁⟩ := ends rounds (by omega) s store room
        have depth := (first.sound room ran).1
        obtain ⟨s', ran', store'⟩ := ends' rounds (by omega) s₁ store₁ (by omega)
        refine ⟨s', ?_, store'⟩
        rw [bind_eq, ran]
        exact ran'

theorem map (g : α → β) (implemented : Implements limits levels p rules) :
    Implements limits levels (fun rounds => do return g (← p rounds)) fun x result y =>
      ∃ given, rules x given y ∧ given.map g = result := by
  have returned (a : α) : Implements limits levels (fun _ => (pure (g a) : Eval σ β))
      fun x result y => (.ok (g a), x) = (result, y) := step _ fun _ s => ⟨s, rfl, rfl, rfl⟩
  refine (implemented.bind returned).congr fun x result y => ⟨?_, ?_⟩
  · intro derived
    cases derived with
    | failed ran => exact ⟨_, ran, rfl⟩
    | next ran continued =>
        cases continued
        exact ⟨_, ran, rfl⟩
  · rintro ⟨given, derived, rfl⟩
    cases given with
    | ok a => exact .next derived rfl
    | error e => exact .failed derived

theorem logged (e : Event) (implemented : Implements limits levels p rules) :
    Implements limits levels (fun rounds => emit e >>= fun _ => p rounds) rules where
  sound {_ s _ _} room ended := @implemented.sound _ (s.log e) _ _ room ended
  complete derived := by
    obtain ⟨least, ends⟩ := implemented.complete derived
    exact ⟨least, fun rounds enough s => ends rounds enough (s.log e)⟩

/-- A node without a step limit: its rules, one level deeper. -/
theorem nested (unlimited : limits.maxSteps = none) (span : Span)
    (inside : Implements limits levels p rules) :
    Implements limits (levels + 1) (fun rounds => nested limits span (p rounds)) rules where
  sound {rounds s s' result} room ended := by
    rw [nested_unlimited unlimited (by omega)] at ended
    obtain ⟨s₁, ran, store, depth⟩ := of_leave ended
    have room' : s.enter.count.depth + levels ≤ limits.maxDepth := by
      change s.depth + 1 + levels ≤ limits.maxDepth
      omega
    obtain ⟨depth', derived⟩ := inside.sound room' ran
    rw [store]
    refine ⟨?_, derived⟩
    rw [depth, depth']
    exact Nat.add_sub_cancel s.depth 1
  complete derived := by
    obtain ⟨least, ends⟩ := inside.complete derived
    refine ⟨least, fun rounds enough s store room => ?_⟩
    have room' : s.enter.count.depth + levels ≤ limits.maxDepth := by
      change s.depth + 1 + levels ≤ limits.maxDepth
      omega
    obtain ⟨s₁, ran, store₁⟩ := ends rounds enough s.enter.count store room'
    obtain ⟨s', left, store', _⟩ := leave_outcome span _ s₁
    refine ⟨s', ?_, store'.trans store₁⟩
    rw [nested_unlimited unlimited (by omega), ran, left]

end Implements

section

variable {host : Host σ} {limits : Limits}

theorem implements_ofExcept (levels : Nat) (given : Except EvalError α) :
    Implements limits levels (fun _ => (ofExcept given : Eval σ α)) fun x result y =>
      given = result ∧ x = y := by
  refine (Implements.step (fun x => (given, x)) fun _ s => ⟨s, ?_, rfl, rfl⟩).congr ?_
  · cases given <;> rfl
  · intro x result y
    rw [Prod.mk.injEq]

theorem implements_lookup (levels : Nat) (name : String) :
    Implements limits levels (fun _ => (lookup name : Eval σ Value)) fun x result y =>
      Reads x.env name result ∧ x = y := by
  refine .reading (Reads · name) (fun _ s => ?_) Reads.unique
  rw [lookup_eq]
  cases given : s.env.get? name with
  | some value => exact ⟨.ok value, rfl, .bound given⟩
  | none => exact ⟨.error _, rfl, .unbound given⟩

theorem implements_callee (levels : Nat) (name : String) :
    Implements limits levels (fun _ => (callee name : Eval σ Native)) fun x result y =>
      Resolves x.env name result ∧ x = y := by
  refine .reading (Resolves · name) (fun _ s => ?_) Resolves.unique
  rw [callee, bind_eq, lookup_eq]
  cases given : s.env.get? name with
  | some value =>
      cases value with
      | native f => exact ⟨.ok f, rfl, .native given⟩
      | _ =>
          refine ⟨.error _, rfl, .other given ?_⟩
          rintro f ⟨⟩
  | none => exact ⟨.error _, rfl, .unbound given⟩

theorem implements_invoke (levels : Nat) (f : Native) (args : List Value) :
    Implements limits levels (fun _ => invoke host f args) (Invokes host args f) := by
  refine (Implements.step (fun x => x.invoke host f args) fun _ s => ?_).congr fun _ _ _ =>
    invokes_iff.symm
  rw [invoke_eq]
  cases (s.store.invoke host f args).1 <;> exact ⟨_, rfl, rfl, rfl⟩

/-- Rounds up to the first that ends the loop or fails. -/
inductive Repeats {X ε : Type} (round : X → Except ε Bool → X → Prop) :
    X → Except ε Unit → X → Prop where
  | failed {x y : X} {e : ε} (ran : round x (.error e) y) : Repeats round x (.error e) y
  | last {x y : X} (ran : round x (.ok false) y) : Repeats round x (.ok ()) y
  | again {x y z : X} {result : Except ε Unit} (ran : round x (.ok true) y)
      (repeated : Repeats round y result z) : Repeats round x result z

theorem repeats_sound {levels : Nat} {round : Nat → Eval σ Bool}
    {rules : Store σ → Except EvalError Bool → Store σ → Prop}
    (each : Implements limits levels round rules) (event : Nat → Event) (rounds bound done : Nat)
    {s s' : State σ} {result : Except EvalError Unit} (room : s.depth + levels ≤ limits.maxDepth)
    (ended : (repeatRounds (round rounds) bound done >>= fun n => emit (event n)) s =
      outcome result s') :
    s'.depth = s.depth ∧ Repeats rules s.store result s'.store := by
  induction bound generalizing done s with
  | zero => cases result <;> cases ended
  | succ bound ih =>
      rw [repeatRounds, bind_assoc, bind_eq] at ended
      cases ran : round rounds s with
      | ok again s₁ =>
          rw [ran] at ended
          obtain ⟨depth, derived⟩ := @each.sound rounds s s₁ (.ok again) room ran
          cases again with
          | true =>
              obtain ⟨depth', derived'⟩ := ih (done + 1) (by omega) ended
              exact ⟨depth'.trans depth, .again derived derived'⟩
          | false =>
              cases result <;> cases ended
              exact ⟨depth, .last derived⟩
      | error halt s₁ =>
          rw [ran] at ended
          cases result <;> cases ended
          obtain ⟨depth, derived⟩ := @each.sound rounds s s' (.error _) room ran
          exact ⟨depth, .failed derived⟩

theorem repeats_complete {levels : Nat} {round : Nat → Eval σ Bool}
    {rules : Store σ → Except EvalError Bool → Store σ → Prop}
    (each : Implements limits levels round rules) (event : Nat → Event)
    {x y : Store σ} {result : Except EvalError Unit} (derived : Repeats rules x result y) :
    ∃ least, ∀ rounds bound done, least ≤ rounds → least ≤ bound → ∀ s : State σ, s.store = x →
      s.depth + levels ≤ limits.maxDepth →
      ∃ s', (repeatRounds (round rounds) bound done >>= fun n => emit (event n)) s =
        outcome result s' ∧ s'.store = y := by
  -- a round takes one from the bound, and each derived round needs its own number of inner rounds
  induction derived with
  | failed ran =>
      obtain ⟨least, ends⟩ := each.complete ran
      refine ⟨least + 1, fun rounds bound done enough bounded s store room => ?_⟩
      obtain ⟨bound, rfl⟩ : ∃ n, bound = n + 1 := ⟨bound - 1, by omega⟩
      obtain ⟨s', ran, store'⟩ := ends rounds (by omega) s store room
      refine ⟨s', ?_, store'⟩
      rw [repeatRounds, bind_assoc, bind_eq, ran]
      rfl
  | last ran =>
      obtain ⟨least, ends⟩ := each.complete ran
      refine ⟨least + 1, fun rounds bound done enough bounded s store room => ?_⟩
      obtain ⟨bound, rfl⟩ : ∃ n, bound = n + 1 := ⟨bound - 1, by omega⟩
      obtain ⟨s', ran, store'⟩ := ends rounds (by omega) s store room
      refine ⟨s'.log (event (done + 1)), ?_, store'⟩
      rw [repeatRounds, bind_assoc, bind_eq, ran]
      rfl
  | again ran _ ih =>
      obtain ⟨least, ends⟩ := each.complete ran
      obtain ⟨least', ends'⟩ := ih
      refine ⟨max least least' + 1, fun rounds bound done enough bounded s store room => ?_⟩
      obtain ⟨bound, rfl⟩ : ∃ n, bound = n + 1 := ⟨bound - 1, by omega⟩
      obtain ⟨s₁, ran, store₁⟩ := ends rounds (by omega) s store room
      have depth := (each.sound room ran).1
      obtain ⟨s', ran', store'⟩ := ends' rounds bound (done + 1) (by omega) (by omega) s₁ store₁
        (by omega)
      refine ⟨s', ?_, store'⟩
      rw [repeatRounds, bind_assoc, bind_eq, ran]
      exact ran'

theorem implements_repeatRounds {levels : Nat} {round : Nat → Eval σ Bool}
    {rules : Store σ → Except EvalError Bool → Store σ → Prop}
    (each : Implements limits levels round rules) (event : Nat → Event) :
    Implements limits levels (fun rounds => repeatRounds (round rounds) rounds 0 >>= fun n =>
      emit (event n)) (Repeats rules) where
  sound {rounds _ _ _} room ended := repeats_sound each event rounds rounds 0 room ended
  complete derived := by
    obtain ⟨least, ends⟩ := repeats_complete each event derived
    exact ⟨least, fun rounds enough => ends rounds rounds 0 enough enough⟩

end

end TinyScript
