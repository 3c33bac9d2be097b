import TinyScript.Proofs.Assignments
import TinyScript.Proofs.Budgets

/-!
# Names that do not occur

What a program does depends on the bindings of the names that occur in it, and
on no others: two runs from states that agree on these names go along with each
other, and each leaves its other bindings as they are.
-/

namespace TinyScript

open Eval

variable {σ : Type}

def Program.names (program : Program) : List String :=
  program.mentions.map Prod.fst ++ stmtTargets program.stmts

/-- States agree on names: only the other names, the last error's place and the log may differ. -/
structure State.AgreesOn (names : List String) (s t : State σ) : Prop where
  env : ∀ name ∈ names, s.env.get? name = t.env.get? name
  sink : s.sink = t.sink
  host : s.host = t.host
  steps : s.steps = t.steps
  depth : s.depth = t.depth

theorem State.AgreesOn.symm {names : List String} {s t : State σ} (agrees : s.AgreesOn names t) :
    t.AgreesOn names s where
  env name mem := (agrees.env name mem).symm
  sink := agrees.sink.symm
  host := agrees.host.symm
  steps := agrees.steps.symm
  depth := agrees.depth.symm

def Simulation.ofNames (names : List String) (setting : Setting σ) :
    Simulation (fun name _ => name ∈ names) setting setting where
  related x y :=
    (∀ name ∈ names, x.env.get? name = y.env.get? name) ∧ x.sink = y.sink ∧ x.host = y.host
  cut _ := False
  behind := Sink.Extends
  behind_of_related := by
    rintro x y ⟨_, sink, _⟩
    rw [sink]
    exact .refl y.sink
  behind_extends := Sink.Extends.trans
  lookup := by
    rintro x y ⟨env, _⟩ name span mem
    exact env name mem
  assign := by
    rintro x y ⟨env, sink, host⟩ target value
    refine ⟨fun name mem => ?_, sink, host⟩
    change (x.env.assign target value).get? name = (y.env.assign target value).get? name
    rw [Environment.get?_assign, Environment.get?_assign, env name mem]
  invoke := by
    rintro ⟨env₁, sink, state⟩ ⟨env₂, _, _⟩ ⟨env, rfl, rfl⟩ f args
    refine .inl ?_
    unfold Store.invoke
    cases f.handle <;> exact ⟨rfl, env, rfl, rfl⟩
  flush := by
    rintro x y ⟨_, sink, _⟩
    rw [sink]
  depth := .inl rfl
  steps := .inl rfl
  rounds := .inl rfl

/-- Where one run ends, the other ends in the same way. -/
theorem Ends.agreesOn {host : Host σ} {limits : Limits} {program : Program} {s t s' : State σ}
    {result : Except EvalError Unit} (agrees : s.AgreesOn program.names t)
    (ended : Ends host limits program s result s') :
    ∃ t', Ends host limits program t result t' ∧ s'.AgreesOn program.names t' ∧
      s'.errorSpan = t'.errorSpan := by
  obtain ⟨rounds, ended⟩ := ended
  rw [evalProgram_cleared, following_eq_outcome_iff] at ended
  obtain ⟨s₁, ended, rfl⟩ := ended
  let sim := Simulation.ofNames program.names ⟨host, limits, rounds⟩
  have start : sim.Related s.cleared t.cleared :=
    ⟨⟨agrees.env, agrees.sink, agrees.host⟩, agrees.steps, agrees.depth, rfl, rfl⟩
  have mentioned : ∀ m ∈ program.mentions, m.1 ∈ program.names := fun m mem =>
    List.mem_append_left _ (List.mem_map_of_mem mem)
  have follows := sim.program mentioned start
  rw [ended] at follows
  obtain ⟨t₁, ended', related⟩ := follows.of_outcome fun _ => id
  obtain ⟨⟨env, sink, state⟩, steps, depth, errorSpan, _⟩ := related
  refine ⟨t₁.following t.events, ⟨rounds, ?_⟩, ⟨env, sink, state, steps, depth⟩, errorSpan⟩
  rw [evalProgram_cleared, following_eq_outcome_iff]
  exact ⟨t₁, ended', rfl⟩

/-- A run leaves the names that do not occur in its program. -/
theorem Ends.env_of_not_mem {host : Host σ} {limits : Limits} {program : Program} {s s' : State σ}
    {result : Except EvalError Unit} (ended : Ends host limits program s result s') {name : String}
    (other : name ∉ program.names) : s'.env.get? name = s.env.get? name := by
  obtain ⟨rounds, ended⟩ := ended
  have target : name ∉ (Call.program program).targets := fun mem =>
    other (List.mem_append_right _ mem)
  have kept := get?_run_of_not_mem ⟨host, limits, rounds⟩ target s
  rw [Call.run, ended, final_outcome] at kept
  exact kept

/--
Names that do not occur in a program do not matter to it.  Of two runs from
states that agree on the names that do occur, both end or neither does; and if
they end, then with the same result, the same output, the same number of
visited nodes, the same place of an error and the same state of the host, and
the names that occur are bound alike.  Every other name is left as it is by
each run.
-/
theorem unmentioned_names_irrelevant {host : Host σ} {limits : Limits} {program : Program}
    {s t : State σ} (agrees : s.AgreesOn program.names t) :
    ((∃ result s', Ends host limits program s result s') ↔
      ∃ result t', Ends host limits program t result t') ∧
    ∀ result s' result' t', Ends host limits program s result s' →
      Ends host limits program t result' t' →
      result = result' ∧ s'.AgreesOn program.names t' ∧ s'.errorSpan = t'.errorSpan ∧
      ∀ name, name ∉ program.names →
        s'.env.get? name = s.env.get? name ∧ t'.env.get? name = t.env.get? name := by
  have back : ∀ {result t'}, Ends host limits program t result t' →
      ∃ s', Ends host limits program s result s' := by
    intro result t' ended
    obtain ⟨s', ended', _⟩ := ended.agreesOn agrees.symm
    exact ⟨s', ended'⟩
  obtain ⟨both, same⟩ := ends_alike (fun ended => ended.agreesOn agrees) back
  refine ⟨both, fun result s' result' t' ended ended' => ?_⟩
  obtain ⟨rfl, alike, errorSpan⟩ := same result s' result' t' ended ended'
  exact ⟨rfl, alike, errorSpan, fun name other =>
    ⟨ended.env_of_not_mem other, ended'.env_of_not_mem other⟩⟩

/-- The loop `while more() { more = count; }`, which replaces its own condition by a number. -/
def replacedGuard : Program :=
  let span : Span := default
  ⟨[.loop .whileTrue (.call ⟨"more", span⟩ [] span)
      (.mk [.assign ⟨"more", span⟩ (.ident "count" span) span] span) .nothing span], span⟩

def reboundState : State Catalogue :=
  { guardedState with
    env := (guardedState.env.assign "write" (.integer 5)).assign "spare" (.boolean true)
    errorSpan := some default
    events := #[.finished 7] }

/-- Neither the other value nor the additional name changes how the loop fails. -/
theorem unmentioned_names_irrelevant_replacedGuard :
    guardedState.AgreesOn replacedGuard.names reboundState ∧
    ∃ s t, Ends Catalogue.host {} replacedGuard guardedState
        (.error (.notBoolean "`while` condition: expected boolean, got integer")) s ∧
      Ends Catalogue.host {} replacedGuard reboundState
        (.error (.notBoolean "`while` condition: expected boolean, got integer")) t ∧
      s.AgreesOn replacedGuard.names t ∧ s.errorSpan = t.errorSpan ∧
      s.env.get? "write" = guardedState.env.get? "write" ∧
      t.env.get? "write" = some (.integer 5) := by
  have agrees : guardedState.AgreesOn replacedGuard.names reboundState :=
    ⟨by decide +kernel, rfl, rfl, rfl, rfl⟩
  have ended : Ends Catalogue.host {} replacedGuard guardedState
      (.error (.notBoolean "`while` condition: expected boolean, got integer")) _ :=
    @ends_of_result _ _ _ 2 _ _ _ (by decide +kernel)
  obtain ⟨runs, same⟩ := unmentioned_names_irrelevant agrees
  obtain ⟨result, t, ended'⟩ := runs.1 ⟨_, _, ended⟩
  obtain ⟨rfl, alike, errorSpan, others⟩ := same _ _ _ _ ended ended'
  obtain ⟨kept, kept'⟩ := others "write" (by decide +kernel)
  exact ⟨agrees, _, t, ended, ended', alike, errorSpan, kept, kept'.trans (by decide +kernel)⟩

end TinyScript
