import TinyScript.Proofs.Simulation
import TinyScript.Run.HostFunction

/-!
# Budgets only cut runs short

A run ends if it gives a result once its loops are allowed enough rounds; more
rounds do not change the result.  Larger budgets do not change the result
either, unless a budget was used up; and a run whose budget was used up has
written a part of what the run with the larger budgets writes.
-/

namespace TinyScript

open Eval

variable {σ : Type}

/-- A run of a program ends with a result in a state, given enough rounds for its loops. -/
def Ends (host : Host σ) (limits : Limits) (program : Program) (s : State σ)
    (result : Except EvalError Unit) (s' : State σ) : Prop :=
  ∃ rounds, evalProgram ⟨host, limits, rounds⟩ program s = outcome result s'

def Eval.result {α : Type} : EStateM.Result Halt (State σ) α → Option (Except EvalError α)
  | .ok x _ => some (.ok x)
  | .error (.failed e) _ => some (.error e)
  | .error .unfinished _ => none

instance {α : Type} [DecidableEq α] : DecidableEq (Except EvalError α)
  | .ok x, .ok y => decidable_of_iff (x = y) (by simp)
  | .error e, .error e' => decidable_of_iff (e = e') (by simp)
  | .ok _, .error _ => isFalse nofun
  | .error _, .ok _ => isFalse nofun

theorem Eval.eq_outcome_of_result {α : Type} {r : EStateM.Result Halt (State σ) α}
    {result : Except EvalError α} (given : Eval.result r = some result) :
    r = outcome result (final r) := by
  cases r with
  | ok a s =>
      cases given
      rfl
  | error halt s =>
      cases halt <;> cases given
      rfl

/-- Whether and how a run ends is found out by running it. -/
theorem ends_of_result {host : Host σ} {limits : Limits} {rounds : Nat} {program : Program}
    {s : State σ} {result : Except EvalError Unit}
    (given : Eval.result (evalProgram ⟨host, limits, rounds⟩ program s) = some result) :
    Ends host limits program s result (final (evalProgram ⟨host, limits, rounds⟩ program s)) :=
  ⟨rounds, eq_outcome_of_result given⟩

def Simulation.ofBudgets {host : Host σ} {small large : Limits} {rounds more : Nat}
    (cut : Halt → Prop)
    (depth : small.maxDepth = large.maxDepth ∨
      small.maxDepth ≤ large.maxDepth ∧ cut (.failed (.stackOverflow small.maxDepth)))
    (steps : small.maxSteps = large.maxSteps ∨ ∃ n, small.maxSteps = some n ∧
      (∀ m, large.maxSteps = some m → n ≤ m) ∧ cut (.failed (.stepLimitExceeded n)))
    (enough : rounds = more ∨ rounds ≤ more ∧ cut .unfinished) :
    Simulation (fun _ _ => True) ⟨host, small, rounds⟩ ⟨host, large, more⟩ where
  related := Eq
  cut := cut
  behind := Sink.Extends
  behind_of_related := by
    rintro x _ rfl
    exact .refl x.sink
  behind_extends := Sink.Extends.trans
  lookup := by
    rintro x _ rfl name span _
    rfl
  assign := by
    rintro x _ rfl name value
    rfl
  invoke := by
    rintro x _ rfl f args
    exact .inl ⟨rfl, rfl⟩
  flush := by
    rintro x _ rfl
    rfl
  depth := depth
  steps := steps
  rounds := enough

theorem Simulation.Related.eq {a b : Setting σ} {reads : String → Span → Prop}
    {sim : Simulation reads a b} (equal : ∀ {x y}, sim.related x y → x = y) {s t : State σ}
    (related : sim.Related s t) : s = t := by
  obtain ⟨store, steps, depth, errorSpan, events⟩ := related
  have same := equal store
  cases s
  cases t
  cases same
  cases steps
  cases depth
  cases errorSpan
  cases events
  rfl

/--
A run with smaller budgets is the run with larger ones, or it is cut short.
Then what it has written is a part of what the other run writes.
-/
theorem evalProgram_cut {host : Host σ} {small large : Limits} {rounds more : Nat}
    {cut : Halt → Prop}
    (depth : small.maxDepth = large.maxDepth ∨
      small.maxDepth ≤ large.maxDepth ∧ cut (.failed (.stackOverflow small.maxDepth)))
    (steps : small.maxSteps = large.maxSteps ∨ ∃ n, small.maxSteps = some n ∧
      (∀ m, large.maxSteps = some m → n ≤ m) ∧ cut (.failed (.stepLimitExceeded n)))
    (enough : rounds = more ∨ rounds ≤ more ∧ cut .unfinished) (program : Program) (s : State σ) :
    evalProgram ⟨host, small, rounds⟩ program s = evalProgram ⟨host, large, more⟩ program s ∨
    ∃ halt s', evalProgram ⟨host, small, rounds⟩ program s = .error halt s' ∧ cut halt ∧
      s'.Grows (final (evalProgram ⟨host, large, more⟩ program s)) := by
  let sim : Simulation (fun _ _ => True) ⟨host, small, rounds⟩ ⟨host, large, more⟩ :=
    .ofBudgets cut depth steps enough
  have start : sim.Related s s := ⟨rfl, rfl, rfl, rfl, rfl⟩
  have follows : sim.Follows (evalProgram ⟨host, small, rounds⟩ program s)
      (evalProgram ⟨host, large, more⟩ program s) := sim.program (fun _ _ => trivial) start
  generalize evalProgram ⟨host, small, rounds⟩ program s = r at follows ⊢
  generalize evalProgram ⟨host, large, more⟩ program s = r' at follows ⊢
  cases follows with
  | ok related =>
      rw [related.eq id]
      exact .inl rfl
  | error related =>
      rw [related.eq id]
      exact .inl rfl
  | cut short behind counted => exact .inr ⟨_, _, rfl, short, behind, counted⟩

/-- A run that has ended is not changed by more rounds. -/
theorem evalProgram_moreRounds {host : Host σ} {limits : Limits} {rounds more : Nat}
    (le : rounds ≤ more) {program : Program} {s s' : State σ} {result : Except EvalError Unit}
    (ended : evalProgram ⟨host, limits, rounds⟩ program s = outcome result s') :
    evalProgram ⟨host, limits, more⟩ program s = outcome result s' := by
  have compared := @evalProgram_cut _ host limits limits rounds more (· = .unfinished)
    (.inl rfl) (.inl rfl) (.inr ⟨le, rfl⟩) program s
  rcases compared with same | ⟨_, s₁, stopped, rfl, _⟩
  · exact same.symm.trans ended
  · rw [ended] at stopped
    cases result <;> cases stopped

/-- A run ends in one way only. -/
theorem Ends.unique {host : Host σ} {limits : Limits} {program : Program} {s s₁ s₂ : State σ}
    {result₁ result₂ : Except EvalError Unit} (first : Ends host limits program s result₁ s₁)
    (second : Ends host limits program s result₂ s₂) : result₁ = result₂ ∧ s₁ = s₂ := by
  obtain ⟨rounds₁, ended₁⟩ := first
  obtain ⟨rounds₂, ended₂⟩ := second
  have all₁ := evalProgram_moreRounds (Nat.le_max_left rounds₁ rounds₂) ended₁
  have all₂ := evalProgram_moreRounds (Nat.le_max_right rounds₁ rounds₂) ended₂
  have same := all₁.symm.trans all₂
  cases result₁ <;> cases result₂ <;> cases same <;> exact ⟨rfl, rfl⟩

/-- Runs that end alike, whichever of them ends: both end or neither does, and then alike. -/
theorem ends_alike {host : Host σ} {limits : Limits} {p q : Program} {s t : State σ}
    {R : State σ → State σ → Prop}
    (there : ∀ {result s'}, Ends host limits p s result s' →
      ∃ t', Ends host limits q t result t' ∧ R s' t')
    (back : ∀ {result t'}, Ends host limits q t result t' →
      ∃ s', Ends host limits p s result s') :
    ((∃ result s', Ends host limits p s result s') ↔
      ∃ result t', Ends host limits q t result t') ∧
    ∀ result s' result' t', Ends host limits p s result s' →
      Ends host limits q t result' t' → result = result' ∧ R s' t' := by
  refine ⟨⟨?_, ?_⟩, ?_⟩
  · rintro ⟨result, s', ended⟩
    obtain ⟨t', ended', _⟩ := there ended
    exact ⟨result, t', ended'⟩
  · rintro ⟨result, t', ended⟩
    obtain ⟨s', ended'⟩ := back ended
    exact ⟨result, s', ended'⟩
  · intro result s' result' t' ended ended'
    obtain ⟨t₁, again, alike⟩ := there ended
    obtain ⟨rfl, rfl⟩ := again.unique ended'
    exact ⟨rfl, alike⟩

/-- One set of budgets allows no more than another. -/
instance : LE Limits where
  le small large := small.maxDepth ≤ large.maxDepth ∧
    ∀ m, large.maxSteps = some m → ∃ n, small.maxSteps = some n ∧ n ≤ m

def EvalError.IsBudget (e : EvalError) : Prop :=
  e.kind = .stepLimitExceeded ∨ e.kind = .stackOverflow

/-- What cuts a run short: a budget that is used up, or too few rounds. -/
def Halt.IsBudget : Halt → Prop
  | .failed e => e.IsBudget
  | .unfinished => True

/-- A run with smaller budgets and not more rounds is the run with larger ones, or cut short. -/
theorem evalProgram_budgets {host : Host σ} {small large : Limits} (le : small ≤ large)
    {rounds more : Nat} (enough : rounds ≤ more) (program : Program) (s : State σ) :
    evalProgram ⟨host, small, rounds⟩ program s = evalProgram ⟨host, large, more⟩ program s ∨
    ∃ halt s', evalProgram ⟨host, small, rounds⟩ program s = .error halt s' ∧ halt.IsBudget ∧
      s'.Grows (final (evalProgram ⟨host, large, more⟩ program s)) := by
  obtain ⟨depth, steps⟩ := le
  refine evalProgram_cut (.inr ⟨depth, .inr rfl⟩) ?_ (.inr ⟨enough, trivial⟩) program s
  cases limited : small.maxSteps with
  | none =>
      refine .inl ?_
      cases limited' : large.maxSteps with
      | none => rfl
      | some m =>
          obtain ⟨n, impossible, _⟩ := steps m limited'
          rw [limited] at impossible
          cases impossible
  | some n =>
      refine .inr ⟨n, rfl, fun m limited' => ?_, .inl rfl⟩
      obtain ⟨n', same, bound⟩ := steps m limited'
      rw [limited] at same
      cases same
      exact bound

/--
Budgets only cut runs short.  If a run ends with anything but the error of a
budget, then it ends with larger budgets in the same way and in the same
state.  In any case, if the run with the larger budgets ends at all, then it
has visited at least as many nodes, and its output begins with that of the run
with the smaller ones.
-/
theorem budgets_only_cut {host : Host σ} {small large : Limits} (le : small ≤ large)
    {program : Program} {s s₁ : State σ} {result : Except EvalError Unit}
    (ended : Ends host small program s result s₁) :
    ((∀ e, result = .error e → ¬ e.IsBudget) → Ends host large program s result s₁) ∧
    ∀ result₂ s₂, Ends host large program s result₂ s₂ →
      s₁.sink.Extends s₂.sink ∧ s₁.steps ≤ s₂.steps := by
  obtain ⟨rounds, ended⟩ := ended
  constructor
  · intro other
    refine ⟨rounds, ?_⟩
    rcases evalProgram_budgets le (Nat.le_refl rounds) program s with
      same | ⟨halt, s', short, budget, _⟩
    · exact same.symm.trans ended
    · rw [ended] at short
      cases result with
      | ok u => cases short
      | error e =>
          cases short
          exact absurd budget (other e rfl)
  · rintro result₂ s₂ ⟨rounds₂, ended₂⟩
    have all₁ := evalProgram_moreRounds (Nat.le_max_left rounds rounds₂) ended
    have all₂ := evalProgram_moreRounds (Nat.le_max_right rounds rounds₂) ended₂
    rcases evalProgram_budgets le (Nat.le_refl (max rounds rounds₂)) program s with
      same | ⟨halt, s', short, _, grown⟩
    · rw [all₁, all₂] at same
      have states := congrArg final same
      rw [final_outcome, final_outcome] at states
      rw [states]
      exact State.Grows.refl s₂
    · have states := congrArg final (all₁.symm.trans short)
      rw [all₂, final_outcome] at grown
      rw [final_outcome] at states
      rw [states]
      exact grown

/-- The loop `while true { write(count()); }`. -/
def countingLoop : Program :=
  let span : Span := default
  ⟨[.loop .whileTrue (.const ⟨.boolean, "true"⟩ span)
      (.mk [.call ⟨"write", span⟩ [.call ⟨"count", span⟩ [] span] span] span) .nothing span], span⟩

def countingState : State Catalogue :=
  { env := Environment.builtins.define ⟨"count", .host 0⟩, host := [⟨"count", .count, 0⟩] }

/-- Two step limits that stop a loop in its second and in its third round. -/
theorem budgets_only_cut_loop :
    ∃ s₁ s₂, Ends Catalogue.host { maxSteps := some 5 } countingLoop countingState
        (.error (.stepLimitExceeded 5)) s₁ ∧
      Ends Catalogue.host { maxSteps := some 8 } countingLoop countingState
        (.error (.stepLimitExceeded 8)) s₂ ∧
      s₁.sink.Extends s₂.sink ∧ s₁.steps ≤ s₂.steps := by
  have ended : Ends Catalogue.host { maxSteps := some 5 } countingLoop countingState
      (.error (.stepLimitExceeded 5)) _ :=
    @ends_of_result _ _ _ 6 _ _ _ (by decide +kernel)
  have ended' : Ends Catalogue.host { maxSteps := some 8 } countingLoop countingState
      (.error (.stepLimitExceeded 8)) _ :=
    @ends_of_result _ _ _ 9 _ _ _ (by decide +kernel)
  have le : ({ maxSteps := some 5 } : Limits) ≤ { maxSteps := some 8 } := by
    refine ⟨Nat.le_refl _, fun m same => ⟨5, rfl, ?_⟩⟩
    cases same
    decide
  exact ⟨_, _, ended, ended', (budgets_only_cut le ended).2 _ _ ended'⟩

end TinyScript
