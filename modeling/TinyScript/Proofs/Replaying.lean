import TinyScript.Proofs.Deeds

/-!
# Deeds account for the store

Whatever a run changes in its store, it changes by its deeds: the store after
the run is the store before it, with the deeds replayed in order.  This holds
of every run, whether it succeeds, fails or is stopped.  And if only known
functions are bound before a run, then only known ones are called, and only
known ones are bound after it.
-/

namespace TinyScript

open Eval

variable {σ α β : Type}

/-- What a deed does to a store.  An assignment without a value does nothing. -/
def Deed.perform (host : Host σ) (x : Store σ) : Deed → Store σ
  | .assigns target (some v) => x.assign target v
  | .assigns _ none => x
  | .calls _ f args => (x.invoke host f args).2

def replay (host : Host σ) (x : Store σ) (deeds : List Deed) : Store σ :=
  deeds.foldl (Deed.perform host) x

theorem replay_append (host : Host σ) (x : Store σ) (first second : List Deed) :
    replay host x (first ++ second) = replay host (replay host x first) second :=
  List.foldl_append

theorem extends_replay (host : Host σ) (x : Store σ) (deeds : List Deed) :
    x.sink.Extends (replay host x deeds).sink := by
  induction deeds generalizing x with
  | nil => exact .refl x.sink
  | cons d deeds ih =>
      refine Sink.Extends.trans ?_ (ih (d.perform host x))
      cases d with
      | assigns target value => cases value <;> exact .refl x.sink
      | calls name f args => exact x.extends_invoke host f args

/-- A deed is known if it calls no function, or a known one. -/
def Deed.Known (known : Nat → Prop) : Deed → Prop
  | .assigns _ _ => True
  | .calls _ f _ => (Value.native f).Known known

def Environment.Known (known : Nat → Prop) (env : Environment) : Prop :=
  ∀ name v, env.get? name = some v → v.Known known

theorem Environment.Known.assign {known : Nat → Prop} {env : Environment} (bound : env.Known known)
    (name : String) {v : Value} (isKnown : v.Known known) : (env.assign name v).Known known := by
  intro other w found
  rw [get?_assign] at found
  split at found
  · cases found
    exact isKnown
  · exact bound other w found

def Host.Closed (host : Host σ) (known : Nat → Prop) : Prop :=
  ∀ index args sink state v, known index → (∀ w ∈ args, w.Known known) →
    (host.invoke index args sink state).result = .ok (some v) → v.Known known

/-- If all functions are known, then so is every value. -/
theorem Value.known_of_all (v : Value) : v.Known fun _ => True := by
  cases v with
  | native f => exact fun _ _ => trivial
  | _ => trivial

theorem Store.env_invoke (x : Store σ) (host : Host σ) (f : Native) (args : List Value) :
    (x.invoke host f args).2.env = x.env := by
  unfold Store.invoke
  cases f.handle <;> rfl

/-- A known function gives a known value, if it gives one. -/
theorem Store.invoke_known {known : Nat → Prop} {host : Host σ} (closed : host.Closed known)
    {f : Native} (isKnown : (Value.native f).Known known) {args : List Value}
    (knownArgs : ∀ v ∈ args, v.Known known) (x : Store σ) {v : Value}
    (given : (x.invoke host f args).1 = .ok (some v)) : v.Known known := by
  unfold Store.invoke at given
  cases handle : f.handle with
  | write =>
      rw [handle] at given
      dsimp only at given
      cases written : (writeLines x.sink args).1 <;> rw [written] at given <;> cases given
  | host index =>
      rw [handle] at given
      exact closed index args x.sink x.host v (isKnown index handle) knownArgs given

/-- A call is logged, and its function works on the store. -/
theorem Eval.called_eq (host : Host σ) (f : Native) (args : List Value) (name : String)
    (s : State σ) :
    (do emit (.called name args.length); invoke host f args : Eval σ _) s =
      ofExcept (s.store.invoke host f args).1
        ((s.log (.called name args.length)).withStore (s.store.invoke host f args).2) :=
  invoke_eq host f args (s.log (.called name args.length))

/-- Deeds account for what has changed from one state to another. -/
structure Accounted (known : Nat → Prop) (host : Host σ) (s : State σ) (deeds : List Deed)
    (t : State σ) : Prop where
  store : t.store = replay host s.store deeds
  steps : s.steps ≤ t.steps
  called : ∀ deed ∈ deeds, deed.Known known
  bound : t.env.Known known

namespace Accounted

variable {known : Nat → Prop} {host : Host σ} {s t u : State σ} {first second : List Deed}

theorem idle (store : t.store = s.store) (steps : s.steps ≤ t.steps) (bound : s.env.Known known) :
    Accounted known host s [] t where
  store := store
  steps := steps
  called := List.forall_mem_nil _
  bound := by
    have env : t.env = s.env := congrArg Store.env store
    rwa [env]

theorem append (before : Accounted known host s first t) (after : Accounted known host t second u) :
    Accounted known host s (first ++ second) u where
  store := by rw [after.store, before.store, replay_append]
  steps := Nat.le_trans before.steps after.steps
  called := List.forall_mem_append.2 ⟨before.called, after.called⟩
  bound := after.bound

theorem single {deed : Deed} (store : t.store = deed.perform host s.store)
    (steps : s.steps ≤ t.steps) (called : deed.Known known) (bound : t.env.Known known) :
    Accounted known host s [deed] t :=
  ⟨store, steps, List.forall_mem_singleton.2 called, bound⟩

theorem grows (account : Accounted known host s first t) : s.Grows t := by
  have sink : t.sink = (replay host s.store first).sink := congrArg Store.sink account.store
  refine ⟨?_, account.steps⟩
  rw [sink]
  exact extends_replay host s.store first

/-- Leaving a node touches the counter of levels and the place of an error only. -/
theorem leave {r : EStateM.Result Halt (State σ) α} (told : Accounted known host s first (final r))
    (span : Span) : Accounted known host s first (final (leave span r)) := by
  cases r <;> exact ⟨told.store, told.steps, told.called, told.bound⟩

end Accounted

/--
What a history says of a computation, started with known values only: it
accounts for all changes of the store, and a value that is given has the
property.
-/
def Told (known : Nat → Prop) (host : Host σ) (p : Eval σ α) (h : History σ) (post : α → Prop) :
    Prop :=
  ∀ s, s.env.Known known →
    Accounted known host s (h s) (final (p s)) ∧ ∀ a s', p s = .ok a s' → post a

namespace Told

variable {known : Nat → Prop} {host : Host σ} {p : Eval σ α} {h : History σ} {mid : α → Prop}

theorem grows (told : Told known host p h mid) (s : State σ) (bound : s.env.Known known) :
    s.Grows (final (p s)) :=
  (told s bound).1.grows

/-- A computation that changes neither the store nor the number of visited nodes. -/
theorem still (same : ∀ s, (final (p s)).store = s.store ∧ (final (p s)).steps = s.steps)
    (holds : ∀ s a s', s.env.Known known → p s = .ok a s' → mid a) :
    Told known host p .nothing mid := by
  intro s bound
  obtain ⟨store, steps⟩ := same s
  exact ⟨.idle store (Nat.le_of_eq steps.symm) bound, fun a s' => holds s a s' bound⟩

theorem lookup (name : String) :
    Told known host (lookup name) .nothing (·.Known known) := by
  refine still (fun s => ?_) fun s v s' bound given => ?_
  · rw [final_lookup]
    exact ⟨rfl, rfl⟩
  · rw [lookup_eq] at given
    cases found : s.env.get? name with
    | some w =>
        rw [found] at given
        cases given
        exact bound name v found
    | none =>
        rw [found] at given
        cases given

theorem bind {f : α → Eval σ β} {k : α → History σ} {post : β → Prop}
    (first : Told known host p h mid) (next : ∀ a, mid a → Told known host (f a) (k a) post) :
    Told known host (p >>= f) (h.andThen p k) post := by
  intro s bound
  obtain ⟨before, given⟩ := first s bound
  rw [bind_eq, History.andThen, History.after]
  cases ran : p s with
  | ok a s' =>
      rw [ran] at before
      obtain ⟨after, value⟩ := next a (given a s' ran) s' before.bound
      exact ⟨before.append after, value⟩
  | error halt s' =>
      rw [ran] at before
      constructor
      · rw [List.append_nil]
        exact before
      · rintro b s'' ⟨⟩

theorem tick (limits : Limits) :
    Told known host (tick limits : Eval σ Unit) .nothing fun _ => True := by
  intro s bound
  refine ⟨?_, fun _ _ _ => trivial⟩
  rw [final_tick]
  exact .idle rfl (Nat.le_succ _) bound

theorem nested {limits : Limits} (span : Span) (inside : Told known host p h mid) :
    Told known host (nested limits span p) (.inside limits h) mid := by
  intro s bound
  rw [nested_eq, History.inside]
  split
  · refine ⟨.idle rfl (Nat.le_refl _) bound, ?_⟩
    rintro a s' ⟨⟩
  · obtain ⟨told, given⟩ := (Told.tick limits).bind (fun _ _ => inside) s.enter bound
    have left := told.leave span
    refine ⟨⟨left.store, left.steps, left.called, left.bound⟩, fun a s' ended => ?_⟩
    obtain ⟨s₁, ran, _⟩ := @of_leave _ _ _ _ (.ok a) _ ended
    exact given a s₁ ran

theorem repeatRounds {round : Eval σ Bool} (each : Told known host round h fun _ => True)
    (bound done : Nat) :
    Told known host (repeatRounds round bound done) (.rounds h round bound) fun _ => True := by
  induction bound generalizing done with
  | zero => exact still (fun _ => ⟨rfl, rfl⟩) fun _ _ _ _ given => nomatch given
  | succ bound ih =>
      rw [Eval.repeatRounds, History.rounds]
      refine each.bind fun again _ => ?_
      cases again with
      | true => exact ih (done + 1)
      | false => exact still (fun _ => ⟨rfl, rfl⟩) fun _ _ _ _ _ => trivial

theorem logged {event : α → Event} (told : Told known host p h mid) :
    Told known host (p >>= fun a => emit (event a)) h fun _ => True := by
  intro s bound
  obtain ⟨account, _⟩ := told s bound
  refine ⟨?_, fun _ _ _ => trivial⟩
  rw [bind_eq]
  cases ran : p s with
  | ok a s' =>
      rw [ran] at account
      exact ⟨account.store, account.steps, account.called, account.bound⟩
  | error halt s' =>
      rw [ran] at account
      exact account

/-- An assignment is tried whether its expression gives a value or fails. -/
theorem assign {p : Eval σ Value} (target : String) (told : Told known host p h (·.Known known)) :
    Told known host (p >>= fun v => do emit (.assigned target v); Eval.assign target v)
      (fun s => h s ++ [.assigns target (value? (p s))]) fun _ => True := by
  intro s bound
  obtain ⟨before, isKnown⟩ := told s bound
  refine ⟨?_, fun _ _ _ => trivial⟩
  dsimp only
  rw [bind_eq]
  cases ran : p s with
  | ok v s' =>
      rw [ran] at before
      refine before.append (.single rfl (Nat.le_refl _) trivial ?_)
      exact before.bound.assign target (isKnown v s' ran)
  | error halt s' =>
      rw [ran] at before
      exact before.append (.single rfl (Nat.le_refl _) trivial before.bound)

theorem call (closed : host.Closed known) {f : Native} (isKnown : (Value.native f).Known known)
    {args : List Value} (knownArgs : ∀ v ∈ args, v.Known known) (name : String) :
    Told known host (do emit (.called name args.length); invoke host f args)
      (fun _ => [.calls name f args]) fun result => ∀ v ∈ result, v.Known known := by
  intro s bound
  rw [called_eq, final_ofExcept]
  have kept : (s.store.invoke host f args).2.env.Known known := by
    rw [Store.env_invoke]
    exact bound
  refine ⟨.single rfl (Nat.le_refl _) isKnown kept, fun result s' given v mem => ?_⟩
  cases invoked : (s.store.invoke host f args).1 with
  | ok result' =>
      rw [invoked] at given
      cases given
      rw [Option.mem_def.1 mem] at invoked
      exact s.store.invoke_known closed isKnown knownArgs invoked
  | error e =>
      rw [invoked] at given
      cases given

end Told

/-- Histories tell what computations do. -/
theorem Does.told {known : Nat → Prop} {setting : Setting σ} (closed : setting.host.Closed known)
    {p : Eval σ α} {h : History σ} {post : α → Prop} (does : Does known setting p h post) :
    Told known setting.host p h post := by
  induction does with
  | pure holds =>
      refine .still (fun _ => ⟨rfl, rfl⟩) fun s a s' _ given => ?_
      cases given
      exact holds
  | bind _ _ first next => exact first.bind next
  | fail e => exact .still (fun _ => ⟨rfl, rfl⟩) fun _ _ _ _ given => nomatch given
  | reject span e => exact .still (fun _ => ⟨rfl, rfl⟩) fun _ _ _ _ given => nomatch given
  | lookup name => exact .lookup name
  | assign target _ given => exact given.assign target
  | call name isKnown knownArgs => exact .call closed isKnown knownArgs name
  | nested span _ inside => exact inside.nested span
  | rounds kind _ each => exact (each.repeatRounds setting.rounds 0).logged

/-- Concluding a program leaves the store as it is. -/
theorem Eval.store_conclude (r : EStateM.Result Halt (State σ) Unit) :
    (final (conclude r)).store = (final r).store := by
  cases r with
  | ok u s =>
      rw [conclude]
      cases s.sink.flush <;> rfl
  | error halt s => cases halt <;> rfl

/-- The deeds of a call account for what it changes. -/
theorem Call.accounted {known : Nat → Prop} {setting : Setting σ}
    (closed : setting.host.Closed known) (call : Call) {s : State σ} (bound : s.env.Known known) :
    Accounted known setting.host s (call.deeds setting s) (final (call.run setting s)) := by
  cases call with
  | program p =>
      have told := ((does_stmts p.stmts).told closed (begin p s) bound).1
      have store := store_conclude (evalStmts setting p.stmts (begin p s))
      have steps := (final_conclude (evalStmts setting p.stmts (begin p s))).2.1
      have env := congrArg Store.env store
      rw [Call.run, Call.deeds, evalProgram_eq]
      refine ⟨store.trans told.store, Nat.le_trans told.steps (Nat.le_of_eq steps.symm),
        told.called, ?_⟩
      change Environment.Known known (State.store _).env
      rw [env]
      exact told.bound
  | block b => exact ((does_block b).told closed s bound).1
  | stmt stmt => exact ((does_stmt stmt).told closed s bound).1
  | expr e =>
      have does : Does known setting (discard (evalExpr setting e)) (e.deeds setting)
          fun _ => True := (does_expr e).map _ fun _ _ => trivial
      exact (does.told closed s bound).1

end TinyScript
