import TinyScript.Proofs.Coupling

/-!
# What a statement yields

A statement yields a result, a store and deeds if some number of rounds for its
loops is enough for it to end.  If it never ends, there is still what it begins
with.  Budgets that last do not matter to either.  What one statement yields or
begins with carries over to a statement that mimics it, which may need one more
round and one more level for the same.
-/

namespace TinyScript

open Eval

variable {σ : Type}

/-- A statement yields a result, a store after it and deeds, given enough rounds for its loops. -/
def Yields (host : Host σ) (limits : Limits) (stmt : Stmt) (s : State σ)
    (result : Except EvalError Unit) (x : Store σ) (deeds : List Deed) : Prop :=
  ∃ rounds s', discard (evalStmt ⟨host, limits, rounds⟩ stmt) s = outcome result s' ∧
    s'.store = x ∧ stmt.deeds ⟨host, limits, rounds⟩ s = deeds

/-- Deeds that a statement begins with, given enough rounds, whether it ever ends or not. -/
def Begins (host : Host σ) (limits : Limits) (stmt : Stmt) (s : State σ) (deeds : List Deed) :
    Prop :=
  ∃ rounds, deeds <+: stmt.deeds ⟨host, limits, rounds⟩ s

/-- What a statement yields without budgets: with any number of levels that is large enough. -/
def YieldsFreely (host : Host σ) (stmt : Stmt) (s : State σ) (result : Except EvalError Unit)
    (x : Store σ) (deeds : List Deed) : Prop :=
  ∃ least, ∀ depth, least ≤ depth → Yields host ⟨none, depth⟩ stmt s result x deeds

/--
A statement keeps within its budgets: no run of it ends for want of levels or
visits.  The error of a budget that is used up may come from the host, which
may raise any error; then it arises without budgets as well.
-/
def KeepsWithin (host : Host σ) (limits : Limits) (stmt : Stmt) (s : State σ) : Prop :=
  ∀ e x deeds, Yields host limits stmt s (.error e) x deeds → limits.UsedUp e →
    YieldsFreely host stmt s (.error e) x deeds

inductive SameResult (E : EvalError → EvalError → Prop) :
    Except EvalError Unit → Except EvalError Unit → Prop where
  | ok : SameResult E (.ok ()) (.ok ())
  | error {e e' : EvalError} (errors : E e e') : SameResult E (.error e) (.error e')

/-- A result is none that these budgets may have cut short. -/
def Uncut (limits : Limits) (result : Except EvalError Unit) : Prop :=
  ∀ e, result = .error e → ¬ limits.UsedUp e

theorem SameResult.uncut {keyword keyword' : String} {result result' : Except EvalError Unit}
    (same : SameResult (Reworded keyword keyword') result result') {limits : Limits}
    (uncut : Uncut limits result) : Uncut limits result' := by
  rintro e' rfl usedUp
  cases same with
  | error errors =>
      cases errors with
      | same e => exact uncut _ rfl usedUp
      | condition v => cases usedUp

/-- Without a step limit and with enough levels no result is cut short. -/
theorem uncut_of_deep (result : Except EvalError Unit) :
    ∃ least, ∀ depth, least ≤ depth → Uncut ⟨none, depth⟩ result := by
  refine ⟨match result with
    | .error (.stackOverflow limit) => limit + 1
    | _ => 0, fun depth enough => ?_⟩
  rintro e rfl usedUp
  cases usedUp with
  | levels => exact absurd enough (Nat.not_succ_le_self depth)
  | visits limited => cases limited

section

variable {host : Host σ} {s t : State σ} {result : Except EvalError Unit} {x : Store σ}
  {deeds : List Deed}

/-- Where the first of two coupled computations ends uncut, so does the second. -/
theorem Couples.ends {small : Limits} {early : Prop} {E : EvalError → EvalError → Prop}
    {p q : Eval σ Unit} {h k : History σ} (coupled : Couples small early E s.depth t.depth p h q k)
    (store : s.store = t.store) {s' : State σ} (ended : p s = outcome result s')
    (uncut : Uncut small result) : ∃ result' t', q t = outcome result' t' ∧
      t'.store = s'.store ∧ k t = h s ∧ SameResult E result result' := by
  rcases coupled s t store rfl rfl with short | ⟨deeds, matching⟩
  · rw [ended] at short
    cases result with
    | ok => cases short
    | error e =>
        cases short with
        | budget usedUp => exact absurd usedUp (uncut e rfl)
  · rw [ended] at matching
    generalize q t = r at matching ⊢
    cases result with
    | ok =>
        cases matching with
        | ok store => exact ⟨.ok (), _, rfl, store.symm, deeds.symm, .ok⟩
    | error e =>
        cases matching with
        | error errors store => exact ⟨.error _, _, rfl, store.symm, deeds.symm, .error errors⟩

/-- Where the first of two coupled computations runs out of rounds, the second has begun alike. -/
theorem Couples.begins {small : Limits} {early : Prop} {E : EvalError → EvalError → Prop}
    {p q : Eval σ Unit} {h k : History σ} (coupled : Couples small early E s.depth t.depth p h q k)
    (store : s.store = t.store) {s' : State σ} (stopped : p s = .error .unfinished s') :
    h s <+: k t ∧ (¬ early → h s = k t ∧ ∃ t', q t = .error .unfinished t') := by
  rcases coupled s t store rfl rfl with short | ⟨deeds, matching⟩
  · rw [stopped] at short
    cases short with
    | rounds may begins => exact ⟨begins, fun never => absurd may never⟩
  · rw [stopped] at matching
    generalize q t = r at matching ⊢
    cases matching with
    | stopped => exact ⟨deeds ▸ List.prefix_rfl, fun _ => ⟨deeds, _, rfl⟩⟩

/-- No step limit, and no fewer levels and rounds, change nothing about an uncut end. -/
theorem ends_freely {limits : Limits} {depth n m : Nat} {stmt : Stmt} {s' : State σ}
    (enough : limits.maxDepth ≤ depth) (le : n ≤ m) (uncut : Uncut limits result)
    (ended : discard (evalStmt ⟨host, limits, n⟩ stmt) s = outcome result s') :
    ∃ t', discard (evalStmt ⟨host, ⟨none, depth⟩, m⟩ stmt) s = outcome result t' ∧
      t'.store = s'.store ∧
      stmt.deeds ⟨host, ⟨none, depth⟩, m⟩ s = stmt.deeds ⟨host, limits, n⟩ s := by
  have longer : Longer True ⟨host, limits, n⟩ ⟨host, ⟨none, depth⟩, m⟩ :=
    ⟨⟨rfl, rfl⟩, le, fun _ => trivial⟩
  have coupled := coupled_stmt longer stmt s.depth s.depth (Nat.add_le_add_right enough _)
  obtain ⟨result', t', ended', store, deeds, same⟩ := coupled.ends rfl ended uncut
  have equal : result' = result := by
    cases same with
    | ok => rfl
    | error errors => rw [errors]
  exact ⟨t', equal ▸ ended', store, deeds⟩

/-- A statement yields without budgets what it yields within budgets that last. -/
theorem Yields.freely {limits : Limits} {stmt : Stmt}
    (yields : Yields host limits stmt s result x deeds) (uncut : Uncut limits result) :
    YieldsFreely host stmt s result x deeds := by
  obtain ⟨rounds, s', ended, rfl, rfl⟩ := yields
  refine ⟨limits.maxDepth, fun depth enough => ?_⟩
  obtain ⟨t', ended', store, deeds⟩ := ends_freely enough (Nat.le_refl rounds) uncut ended
  exact ⟨rounds, t', ended', store, deeds⟩

/-- Without budgets a statement yields one thing only. -/
theorem YieldsFreely.unique {stmt : Stmt} {result' : Except EvalError Unit} {x' : Store σ}
    {deeds' : List Deed} (first : YieldsFreely host stmt s result x deeds)
    (second : YieldsFreely host stmt s result' x' deeds') :
    result = result' ∧ x = x' ∧ deeds = deeds' := by
  obtain ⟨least, first⟩ := first
  obtain ⟨least', second⟩ := second
  obtain ⟨deep, uncut⟩ := uncut_of_deep result
  obtain ⟨deep', uncut'⟩ := uncut_of_deep result'
  let depth := least + least' + deep + deep'
  obtain ⟨n, s₁, ended, rfl, rfl⟩ := first depth (by omega)
  obtain ⟨m, s₂, ended', rfl, rfl⟩ := second depth (by omega)
  -- of two numbers of rounds the larger one decides, since the smaller one is large enough
  rcases Nat.le_total n m with le | le
  · obtain ⟨t, again, store, deeds⟩ :=
      ends_freely (Nat.le_refl depth) le (uncut depth (by omega)) ended
    obtain ⟨rfl, rfl⟩ := outcome_inj (again.symm.trans ended')
    exact ⟨rfl, store.symm, deeds.symm⟩
  · obtain ⟨t, again, store, deeds⟩ :=
      ends_freely (Nat.le_refl depth) le (uncut' depth (by omega)) ended'
    obtain ⟨rfl, rfl⟩ := outcome_inj (again.symm.trans ended)
    exact ⟨rfl, store, deeds⟩

/-- Given one more round and one more level, the second statement does what the first does. -/
def Mimics (σ : Type) (keyword keyword' : String) (p q : Stmt) : Prop :=
  ∀ a b : Setting σ, Longer True a b → a.rounds < b.rounds → ∀ i j,
    a.limits.maxDepth + j + 1 ≤ b.limits.maxDepth + i →
      Couples a.limits True (Reworded keyword keyword') i j (discard (evalStmt a p)) (p.deeds a)
        (discard (evalStmt b q)) (q.deeds b)

/-- What a statement yields without budgets, a statement that mimics it yields as well. -/
theorem YieldsFreely.transfer {keyword keyword' : String} {p q : Stmt}
    (mimics : Mimics σ keyword keyword' p q) (yields : YieldsFreely host p s result x deeds) :
    ∃ result', SameResult (Reworded keyword keyword') result result' ∧
      YieldsFreely host q s result' x deeds := by
  obtain ⟨least, yields⟩ := yields
  obtain ⟨deep, uncut⟩ := uncut_of_deep result
  let depth := least + deep
  obtain ⟨n, s', ended, rfl, rfl⟩ := yields depth (by omega)
  -- the second statement is given one more round and one more level
  have longer : Longer True ⟨host, ⟨none, depth⟩, n⟩ ⟨host, ⟨none, depth + 1⟩, n + 1⟩ :=
    ⟨⟨rfl, rfl⟩, Nat.le_succ n, fun _ => trivial⟩
  have coupled := mimics _ _ longer (Nat.lt_succ_self n) s.depth s.depth (by dsimp only; omega)
  obtain ⟨result', t', ended', store, deeds, same⟩ :=
    coupled.ends rfl ended (uncut depth (by omega))
  have yields' : Yields host ⟨none, depth + 1⟩ q s result' s'.store _ :=
    ⟨n + 1, t', ended', store, deeds⟩
  exact ⟨result', same, yields'.freely (same.uncut (uncut (depth + 1) (by omega)))⟩

section

variable {limits : Limits} {stmt : Stmt}

/-- Within its budgets a statement yields only what it yields without them. -/
theorem KeepsWithin.freely (within : KeepsWithin host limits stmt s)
    (yields : Yields host limits stmt s result x deeds) :
    YieldsFreely host stmt s result x deeds := by
  by_cases uncut : Uncut limits result
  · exact yields.freely uncut
  · simp only [Uncut, not_forall, not_not] at uncut
    obtain ⟨e, rfl, usedUp⟩ := uncut
    exact within e x deeds yields usedUp

/-- With any number of rounds a statement yields something, or it runs out of them. -/
theorem yields_or_stopped (host : Host σ) (limits : Limits) (stmt : Stmt) (s : State σ) (n : Nat) :
    (∃ result x, Yields host limits stmt s result x (stmt.deeds ⟨host, limits, n⟩ s)) ∨
    ∃ s', discard (evalStmt ⟨host, limits, n⟩ stmt) s = .error .unfinished s' := by
  cases ran : discard (evalStmt ⟨host, limits, n⟩ stmt) s with
  | ok u s' => exact .inl ⟨.ok (), s'.store, n, s', ran, rfl, rfl⟩
  | error halt s' =>
      cases halt with
      | failed e => exact .inl ⟨.error e, s'.store, n, s', ran, rfl, rfl⟩
      | unfinished => exact .inr ⟨s', rfl⟩

/-- A statement that ends without budgets ends under any. -/
theorem YieldsFreely.ends (freely : YieldsFreely host stmt s result x deeds) :
    ∃ result' x' deeds', Yields host limits stmt s result' x' deeds' := by
  obtain ⟨least, freely⟩ := freely
  let depth := least + limits.maxDepth
  obtain ⟨n, s', ended, -⟩ := freely depth (by omega)
  rcases yields_or_stopped host limits stmt s n with ⟨result', x', yields⟩ | ⟨s₁, stopped⟩
  · exact ⟨result', x', _, yields⟩
  · -- with as many rounds and without budgets, the run would not have ended either
    have equal : Longer False ⟨host, limits, n⟩ ⟨host, ⟨none, depth⟩, n⟩ :=
      ⟨⟨rfl, rfl⟩, Nat.le_refl n, Nat.lt_irrefl n⟩
    have coupled := coupled_stmt equal stmt s.depth s.depth (by dsimp only; omega)
    obtain ⟨-, t', stopped'⟩ := (coupled.begins rfl stopped).2 id
    cases result <;> cases ended.symm.trans stopped'

/-- Within its budgets a statement yields all that it yields without them. -/
theorem KeepsWithin.yields (within : KeepsWithin host limits stmt s)
    (freely : YieldsFreely host stmt s result x deeds) :
    Yields host limits stmt s result x deeds := by
  obtain ⟨result', x', deeds', yields⟩ := freely.ends
  obtain ⟨rfl, rfl, rfl⟩ := freely.unique (within.freely yields)
  exact yields

/-- What a statement begins with is the beginning of what it has done once it yields something. -/
theorem KeepsWithin.begins_of_yields (within : KeepsWithin host limits stmt s)
    (yields : Yields host limits stmt s result x deeds) (n : Nat) :
    stmt.deeds ⟨host, limits, n⟩ s <+: deeds := by
  rcases yields_or_stopped host limits stmt s n with ⟨result', x', yields'⟩ | ⟨s', stopped⟩
  · obtain ⟨-, -, same⟩ := (within.freely yields').unique (within.freely yields)
    exact same ▸ List.prefix_rfl
  · obtain ⟨least, freely⟩ := within.freely yields
    obtain ⟨deep, uncut⟩ := uncut_of_deep result
    let depth := least + deep + limits.maxDepth
    obtain ⟨m, s₁, ended, rfl, rfl⟩ := freely depth (by omega)
    -- both numbers of rounds are within their sum, which the run without budgets is given
    obtain ⟨t, -, -, deeds⟩ := ends_freely (Nat.le_refl depth) (Nat.le_add_left m n)
      (uncut depth (by omega)) ended
    have longer : Longer True ⟨host, limits, n⟩ ⟨host, ⟨none, depth⟩, n + m⟩ :=
      ⟨⟨rfl, rfl⟩, Nat.le_add_right n m, fun _ => trivial⟩
    have coupled := coupled_stmt longer stmt s.depth s.depth (by dsimp only; omega)
    rw [← deeds]
    exact (coupled.begins rfl stopped).1

/-- What a statement begins with, a statement that mimics it begins with, if it ends no earlier. -/
theorem Begins.transfer {keyword keyword' : String} {p q : Stmt}
    (mimics : Mimics σ keyword keyword' p q) (within : KeepsWithin host limits p s)
    (within' : KeepsWithin host limits q s)
    (ends : (∃ result x deeds, Yields host limits q s result x deeds) →
      ∃ result x deeds, Yields host limits p s result x deeds)
    (begins : Begins host limits p s deeds) : Begins host limits q s deeds := by
  obtain ⟨n, begins⟩ := begins
  by_cases yields : ∃ result x deeds, Yields host limits p s result x deeds
  · obtain ⟨result, x, all, yields⟩ := yields
    obtain ⟨result', -, freely⟩ := (within.freely yields).transfer mimics
    obtain ⟨m, -, -, -, rfl⟩ := within'.yields freely
    exact ⟨m, begins.trans (within.begins_of_yields yields n)⟩
  · -- neither ends, so within the budgets the second does what it does without them
    obtain ⟨s', stopped⟩ := (yields_or_stopped host limits p s n).resolve_left (by
      rintro ⟨result, x, found⟩
      exact yields ⟨result, x, _, found⟩)
    obtain ⟨t', stopped'⟩ := (yields_or_stopped host limits q s (n + 1)).resolve_left (by
      rintro ⟨result, x, found⟩
      exact yields (ends ⟨result, x, _, found⟩))
    let free : Setting σ := ⟨host, ⟨none, limits.maxDepth + 1⟩, n + 1⟩
    have longer : Longer True ⟨host, limits, n⟩ free :=
      ⟨⟨rfl, rfl⟩, Nat.le_succ n, fun _ => trivial⟩
    have equal : Longer False ⟨host, limits, n + 1⟩ free :=
      ⟨⟨rfl, rfl⟩, Nat.le_refl _, Nat.lt_irrefl _⟩
    have mimicked := mimics _ _ longer (Nat.lt_succ_self n) s.depth s.depth
      (by dsimp only [free]; omega)
    have freed := coupled_stmt equal q s.depth s.depth (by dsimp only [free]; omega)
    have same : q.deeds ⟨host, limits, n + 1⟩ s = q.deeds free s :=
      ((freed.begins rfl stopped').2 id).1
    exact ⟨n + 1, begins.trans (same ▸ (mimicked.begins rfl stopped).1)⟩

theorem Yields.result_unique {result' : Except EvalError Unit} {x' : Store σ} {deeds' : List Deed}
    (first : Yields host limits stmt s result x deeds)
    (second : Yields host limits stmt s result' x' deeds') : result = result' := by
  have more {n m : Nat} {result result' : Except EvalError Unit} {s₁ s₂ : State σ} (le : n ≤ m)
      (first : discard (evalStmt ⟨host, limits, n⟩ stmt) s = outcome result s₁)
      (second : discard (evalStmt ⟨host, limits, m⟩ stmt) s = outcome result' s₂) :
      result = result' := by
    let sim : Simulation (fun _ _ => True) ⟨host, limits, n⟩ ⟨host, limits, m⟩ :=
      .ofBudgets (· = .unfinished) (.inl rfl) (.inl rfl) (.inr ⟨le, rfl⟩)
    have start : sim.Related s s := ⟨rfl, rfl, rfl, rfl, rfl⟩
    have follows : sim.Follows (discard (evalStmt ⟨host, limits, n⟩ stmt) s)
        (discard (evalStmt ⟨host, limits, m⟩ stmt) s) :=
      sim.follows (.bind (lockstep_stmt stmt (fun _ _ => trivial) none) fun _ => .pure ()) start
    rw [first] at follows
    have uncut (e : EvalError) : ¬ sim.cut (.failed e) := Halt.noConfusion
    obtain ⟨t, ended, -⟩ := follows.of_outcome uncut
    exact (outcome_inj (ended.symm.trans second)).1
  obtain ⟨n, s₁, ended, -⟩ := first
  obtain ⟨m, s₂, ended', -⟩ := second
  rcases Nat.le_total n m with le | le
  · exact more le ended ended'
  · exact (more le ended' ended).symm

/-- A statement that yields a result other than the error of a budget keeps within its budgets. -/
theorem Yields.keepsWithin (yields : Yields host limits stmt s result x deeds)
    (uncut : Uncut limits result) : KeepsWithin host limits stmt s := by
  intro e x' deeds' yields' usedUp
  have same : result = .error e := yields.result_unique yields'
  exact absurd usedUp (uncut e same)

end

end

end TinyScript
