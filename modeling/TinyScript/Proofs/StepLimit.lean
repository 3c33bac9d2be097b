import TinyScript.Proofs.Budgets

/-!
# Step limits make runs finite

With a step limit every run ends.  A loop has no measure of its own: what
counts is that every round visits a node, that of the condition, even if the
body is empty, and that a visit beyond the limit ends all loops at once.  So
the nodes that may still be visited bound the rounds of every loop, and the
bound on rounds is never reached.
-/

namespace TinyScript

open Eval

variable {σ α β : Type}

namespace Eval

/--
An outcome within a step limit, with at least `least` nodes visited.  A value
is given within the limit, and so is every error but that of the limit itself,
which comes with the first visit beyond it.  The rounds of loops suffice.
-/
def Limited (limit least : Nat) : EStateM.Result Halt (State σ) α → Prop
  | .ok _ s => least ≤ s.steps ∧ s.steps ≤ limit
  | .error (.failed e) s => s.steps ≤ limit ∨ s.steps = limit + 1 ∧ e = .stepLimitExceeded limit
  | .error .unfinished _ => False

theorem Limited.weaken {limit least more : Nat} (le : least ≤ more)
    {r : EStateM.Result Halt (State σ) α} (limited : Limited limit more r) :
    Limited limit least r := by
  cases r with
  | ok x s => exact ⟨Nat.le_trans le limited.1, limited.2⟩
  | error halt s => cases halt <;> exact limited

/-- There are more rounds than nodes that may still be visited. -/
def Allows (limit rounds : Nat) (s : State σ) : Prop := s.steps ≤ limit ∧ limit < s.steps + rounds

theorem Limited.bind {limit least rounds : Nat} {p : Eval σ α} {f : α → Eval σ β}
    {s : State σ} (first : Limited limit least (p s)) (allowed : Allows limit rounds s)
    (above : s.steps ≤ least) (more : Nat)
    (next : ∀ x s', Allows limit rounds s' → Limited limit (s'.steps + more) (f x s')) :
    Limited limit (least + more) ((p >>= f) s) := by
  rw [bind_eq]
  cases ran : p s with
  | ok x s' =>
      rw [ran] at first
      obtain ⟨visited, within⟩ := first
      have bound := allowed.2
      exact (next x s' ⟨within, by omega⟩).weaken (Nat.add_le_add_right visited more)
  | error halt s' =>
      rw [ran] at first
      cases halt <;> exact first

/-- Visiting a node counts it, or ends with the error of the limit. -/
theorem limited_tick {limits : Limits} {limit rounds : Nat}
    (limited : limits.maxSteps = some limit) {s : State σ} (allowed : Allows limit rounds s) :
    Limited limit (s.steps + 1) (tick limits s) := by
  obtain ⟨within, _⟩ := allowed
  rw [tick_eq, limited]
  dsimp only
  split
  · next beyond =>
      refine .inr ⟨?_, rfl⟩
      change s.steps + 1 = limit + 1
      omega
  · next free => exact ⟨Nat.le_refl _, Nat.le_of_not_lt free⟩

/-- A node is left as its evaluation ended, one level higher. -/
theorem Limited.leave {limit least : Nat} {r : EStateM.Result Halt (State σ) α}
    (limited : Limited limit least r) (span : Span) : Limited limit least (leave span r) := by
  cases r with
  | ok x s => exact limited
  | error halt s => cases halt <;> exact limited

theorem limited_nested {limits : Limits} {limit rounds : Nat}
    (limited : limits.maxSteps = some limit) {p : Eval σ α} (span : Span)
    (inside : ∀ s, Allows limit rounds s → Limited limit s.steps (p s)) {s : State σ}
    (allowed : Allows limit rounds s) : Limited limit (s.steps + 1) (nested limits span p s) := by
  rw [nested_eq]
  split
  · exact .inl allowed.1
  · have entered : Allows limit rounds s.enter := allowed
    have visited := limited_tick limited entered
    exact (visited.bind entered (Nat.le_succ _) 0 fun _ s' => inside s').leave span

/-- Rounds that visit a node each end before there are as many as nodes left. -/
theorem limited_repeatRounds {limit rounds : Nat} {round : Eval σ Bool}
    (each : ∀ s, Allows limit rounds s → Limited limit (s.steps + 1) (round s))
    (bound done : Nat) {s : State σ} (allowed : Allows limit rounds s)
    (enough : limit < s.steps + bound) :
    Limited limit s.steps (repeatRounds round bound done s) := by
  induction bound generalizing done s with
  | zero =>
      have within := allowed.1
      omega
  | succ bound ih =>
      rw [repeatRounds, bind_eq]
      have counted := each s allowed
      cases ran : round s with
      | ok again s' =>
          rw [ran] at counted
          obtain ⟨visited, within⟩ := counted
          have allowed' : Allows limit rounds s' := ⟨within, by have := allowed.2; omega⟩
          cases again with
          | true => exact (ih (done + 1) allowed' (by omega)).weaken (by omega)
          | false => exact ⟨by omega, within⟩
      | error halt s' =>
          rw [ran] at counted
          cases halt <;> exact counted

end Eval

/-- Every evaluation stays within the limit, and its loops have rounds enough. -/
theorem Lockstep.limited {reads : String → Span → Prop} {setting other : Setting σ} {limit : Nat}
    (limited : setting.limits.maxSteps = some limit) {own : Option Span} {p q : Eval σ α}
    (built : Lockstep reads setting other own p q) {s : State σ}
    (allowed : Allows limit setting.rounds s) : Limited limit s.steps (p s) := by
  induction built generalizing s with
  | pure x => exact ⟨Nat.le_refl _, allowed.1⟩
  | bind _ _ first next =>
      exact (first allowed).bind allowed (Nat.le_refl _) 0 fun x s' => next x
  | fail _ => exact .inl allowed.1
  | reject span _ => exact .inl allowed.1
  | @lookup span name _ =>
      rw [lookup_eq]
      cases s.env.get? name with
      | some value => exact ⟨Nat.le_refl _, allowed.1⟩
      | none => exact .inl allowed.1
  | emit e => exact ⟨Nat.le_refl _, allowed.1⟩
  | assign name value => exact ⟨Nat.le_refl _, allowed.1⟩
  | invoke f args =>
      rw [invoke_eq]
      cases (s.store.invoke setting.host f args).1 with
      | ok result => exact ⟨Nat.le_refl _, allowed.1⟩
      | error e => exact .inl allowed.1
  | nested _ inside =>
      exact (limited_nested limited _ (fun s => inside) allowed).weaken (Nat.le_succ _)
  | rounds _ _ _ runs checks decides =>
      refine limited_repeatRounds (fun s allowed => ?_) setting.rounds 0 allowed allowed.2
      -- the body may visit nothing; the check behind it visits the node of the condition
      refine (runs allowed).bind allowed (Nat.le_refl _) 1 fun _ s allowed => ?_
      exact (limited_nested limited _ (fun s => checks) allowed).bind allowed (Nat.le_succ _) 0
        fun v s => decides v

/-- The rounds that a step limit calls for are more than the nodes that may still be visited. -/
theorem limited_program {host : Host σ} {limits : Limits} {limit rounds : Nat}
    (limited : limits.maxSteps = some limit) (program : Program) {s : State σ}
    (allowed : Allows limit rounds s) :
    Limited limit s.steps (evalProgram ⟨host, limits, rounds⟩ program s) := by
  have built : Lockstep (fun _ _ => True) ⟨host, limits, rounds⟩ ⟨host, limits, rounds⟩ none
      (evalStmts ⟨host, limits, rounds⟩ program.stmts)
      (evalStmts ⟨host, limits, rounds⟩ program.stmts) :=
    lockstep_stmts program.stmts (fun _ _ => trivial) none
  have start : Allows limit rounds (begin program s) := allowed
  have ended := built.limited limited start
  rw [evalProgram_eq]
  cases ran : evalStmts ⟨host, limits, rounds⟩ program.stmts (begin program s) with
  | ok u s' =>
      rw [ran] at ended
      rw [conclude]
      cases s'.sink.flush with
      | ok u => exact ended
      | error e => exact .inl ended.2
  | error halt s' =>
      rw [ran] at ended
      cases halt <;> exact ended

/--
A step limit makes every run finite.  A run that begins within the limit ends,
and in one way only, whatever bound beyond the nodes left is set to the rounds
of its loops; it visits at most one node beyond the limit, and if it does, then
its result is the error of the limit.
-/
theorem stepLimit_ends {host : Host σ} {limits : Limits} {limit : Nat}
    (limited : limits.maxSteps = some limit) (program : Program) {s : State σ}
    (start : s.steps ≤ limit) :
    ∃ result s',
      (∀ rounds, limit - s.steps < rounds →
        evalProgram ⟨host, limits, rounds⟩ program s = outcome result s') ∧
      s'.steps ≤ limit + 1 ∧
      (s'.steps = limit + 1 → result = .error (.stepLimitExceeded limit)) := by
  have allowed : Allows limit (limit - s.steps + 1) s := ⟨start, by omega⟩
  have ended := @limited_program σ host limits _ _ limited program s allowed
  cases ran : evalProgram ⟨host, limits, limit - s.steps + 1⟩ program s with
  | ok u s' =>
      rw [ran] at ended
      refine ⟨.ok u, s', fun rounds enough => evalProgram_moreRounds enough ran, ?_, ?_⟩
      · exact Nat.le_succ_of_le ended.2
      · intro beyond
        have within := ended.2
        omega
  | error halt s' =>
      rw [ran] at ended
      cases halt with
      | failed e =>
          refine ⟨.error e, s', fun rounds enough => evalProgram_moreRounds enough ran, ?_, ?_⟩
          · rcases ended with within | ⟨beyond, _⟩ <;> omega
          · intro beyond
            rcases ended with within | ⟨_, rfl⟩
            · omega
            · rfl
      | unfinished => exact absurd ended id

def emptyLoops : Program :=
  let span : Span := default
  let forever (body : List Stmt) : Stmt :=
    .loop .whileTrue (.const ⟨.boolean, "true"⟩ span) (.mk body span) .nothing span
  ⟨[forever [forever []]], span⟩

/-- Nested loops without anything to do end at the limit. -/
theorem stepLimit_ends_emptyLoops :
    ∃ result s',
      (∀ rounds, 7 < rounds →
        evalProgram ⟨Catalogue.host, { maxSteps := some 7 }, rounds⟩ emptyLoops { host := [] } =
          outcome result s') ∧
      s'.steps ≤ 8 ∧ (s'.steps = 8 → result = .error (.stepLimitExceeded 7)) :=
  @stepLimit_ends Catalogue Catalogue.host { maxSteps := some 7 } 7 rfl emptyLoops { host := [] }
    (Nat.zero_le 7)

end TinyScript
