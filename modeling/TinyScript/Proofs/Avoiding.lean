import TinyScript.Proofs.LiteralValues
import TinyScript.Proofs.Shape
import TinyScript.Run.Evaluate

/-!
# Runs that avoid an error

The evaluator itself raises two kinds of errors that a script cannot provoke:
internal errors, which only a malformed tree causes, and stack overflows,
which a tree causes that demands more levels than allowed.  Both are avoided
in the same way: every step keeps the invariant of the state, and no step
raises an error of the kind.  Functions of the host are taken to do the same.
-/

namespace TinyScript

variable {σ α β : Type}

/-- The two kinds of errors that a script cannot provoke. -/
def Concerned (kind : ErrorKind) : Prop := kind = .internalError ∨ kind = .stackOverflow

theorem Concerned.ne {kind other : ErrorKind} (concerned : Concerned kind)
    (unconcerned : other ≠ .internalError ∧ other ≠ .stackOverflow) : kind ≠ other := by
  rintro rfl
  rcases concerned with same | same
  · exact unconcerned.1 same
  · exact unconcerned.2 same

/-- A value is known if it is no function of the host, or a known one. -/
def Value.Known (known : Nat → Prop) : Value → Prop
  | .native f => ∀ index, f.handle = .host index → known index
  | .integer _ | .float _ | .text _ | .boolean _ | .null => True

/--
The known functions of a host spare its callers errors of a kind.  Called in a
state of the host that satisfies `inv` on known values, they raise no error of
the kind, give known values only, and keep `inv`.
-/
structure Host.Spares (host : Host σ) (kind : ErrorKind) (known : Nat → Prop) (inv : σ → Prop) :
    Prop where
  raises : ∀ (index : Nat) (args : List Value) (sink : Sink) (state : σ), known index → inv state →
    (∀ v ∈ args, v.Known known) →
    ∀ e, (host.invoke index args sink state).result = .error e → e.kind ≠ kind
  gives : ∀ (index : Nat) (args : List Value) (sink : Sink) (state : σ), known index → inv state →
    (∀ v ∈ args, v.Known known) →
    ∀ v, (host.invoke index args sink state).result = .ok (some v) → v.Known known
  keeps : ∀ (index : Nat) (args : List Value) (sink : Sink) (state : σ), known index → inv state →
    (∀ v ∈ args, v.Known known) → inv (host.invoke index args sink state).state

structure State.Within (known : Nat → Prop) (inv : σ → Prop) (s : State σ) : Prop where
  bound : ∀ (name : String) (v : Value), s.env.get? name = some v → v.Known known
  host : inv s.host

namespace Eval

/-- An outcome without an error of a kind: a value with a property, or an error of another kind. -/
def Spared (kind : ErrorKind) (inv : State σ → Prop) (post : α → Prop) :
    EStateM.Result Halt (State σ) α → Prop
  | .ok a s => post a ∧ inv s
  | .error (.failed e) _ => e.kind ≠ kind
  | .error .unfinished _ => True

/--
A computation avoids a kind of errors: started in a state that satisfies the
invariant, it raises none, and if it gives a value, then one with the property
`post`, in a state that satisfies the invariant again.
-/
def Avoids (kind : ErrorKind) (inv : State σ → Prop) (p : Eval σ α) (post : α → Prop) : Prop :=
  ∀ s, inv s → Spared kind inv post (p s)

section

variable {kind : ErrorKind} {inv : State σ → Prop} {post : α → Prop}

theorem avoids_pure {a : α} (holds : post a) : Avoids kind inv (pure a) post :=
  fun _ start => ⟨holds, start⟩

theorem Spared.bind {p : Eval σ α} {f : α → Eval σ β} {final : β → Prop} {s : State σ}
    (first : Spared kind inv post (p s)) (next : ∀ a, post a → Avoids kind inv (f a) final) :
    Spared kind inv final ((p >>= f) s) := by
  change Spared kind inv final (EStateM.bind p f s)
  unfold EStateM.bind
  cases ran : p s with
  | ok a s' =>
      rw [ran] at first
      exact next a first.1 s' first.2
  | error halt s' =>
      rw [ran] at first
      cases halt <;> exact first

theorem Avoids.bind {p : Eval σ α} {f : α → Eval σ β} {final : β → Prop}
    (first : Avoids kind inv p post) (next : ∀ a, post a → Avoids kind inv (f a) final) :
    Avoids kind inv (p >>= f) final :=
  fun s start => (first s start).bind next

theorem Avoids.weaken {p : Eval σ α} {post' : α → Prop} (avoids : Avoids kind inv p post)
    (weaker : ∀ a, post a → post' a) : Avoids kind inv p post' := by
  intro s start
  have outcome := avoids s start
  cases ran : p s with
  | ok a s' =>
      rw [ran] at outcome
      exact ⟨weaker a outcome.1, outcome.2⟩
  | error halt s' =>
      rw [ran] at outcome
      cases halt <;> exact outcome

theorem avoids_fail {e : EvalError} (other : e.kind ≠ kind) :
    Avoids kind inv (fail e : Eval σ α) post := fun _ _ => other

theorem avoids_ofExcept {x : Except EvalError α} (value : ∀ a, x = .ok a → post a)
    (error : ∀ e, x = .error e → e.kind ≠ kind) :
    Avoids kind inv (ofExcept x : Eval σ α) post := by
  cases x with
  | ok a => exact avoids_pure (value a rfl)
  | error e => exact avoids_fail (error e rfl)

theorem avoids_get : Avoids kind inv (get : Eval σ (State σ)) inv :=
  fun _ start => ⟨start, start⟩

theorem avoids_modify {f : State σ → State σ} (keeps : ∀ s, inv s → inv (f s)) :
    Avoids kind inv (modify f) fun _ => True :=
  fun s start => ⟨trivial, keeps s start⟩

/-- A failed check is located before it fails; the error alone counts. -/
theorem avoids_locate_fail {e : EvalError} (other : e.kind ≠ kind) (span : Span) :
    Avoids kind inv (do modify (·.locate span); fail e : Eval σ α) post := fun _ _ => other

/-- An attempt gives the error that was raised, which is none of the kind. -/
theorem spared_attempt {p : Eval σ α} {s : State σ} (outcome : Spared kind inv post (p s)) :
    Spared kind (fun _ => True) (fun result => ∀ e, result = .error e → e.kind ≠ kind)
      (attempt p s) := by
  unfold attempt
  cases ran : p s with
  | ok a s' => exact ⟨fun e impossible => (by cases impossible), trivial⟩
  | error halt s' =>
      rw [ran] at outcome
      cases halt with
      | failed e =>
          refine ⟨fun e' same => ?_, trivial⟩
          cases same
          exact outcome
      | unfinished => trivial

/-- The rounds of a loop avoid what one round avoids. -/
theorem avoids_repeatRounds {round : Eval σ Bool} (each : Avoids kind inv round fun _ => True)
    (bound done : Nat) : Avoids kind inv (repeatRounds round bound done) fun _ => True := by
  induction bound generalizing done with
  | zero => exact fun _ _ => trivial
  | succ bound ih =>
      rw [repeatRounds]
      refine each.bind fun again _ => ?_
      cases again with
      | true => exact ih (done + 1)
      | false => exact avoids_pure trivial

end

/-! ## The invariant of a run -/

/-- The invariant at one level: known values, the host's invariant, and so many open levels. -/
def At (known : Nat → Prop) (inv : σ → Prop) (depth : Nat) (s : State σ) : Prop :=
  s.Within known inv ∧ s.depth = depth

section

variable {kind : ErrorKind} {known : Nat → Prop} {inv : σ → Prop} {depth : Nat}

theorem avoids_emit (e : Event) :
    Avoids kind (At known inv depth) (emit e) fun _ => True :=
  avoids_modify fun _ start => ⟨⟨start.1.bound, start.1.host⟩, start.2⟩

theorem avoids_tick (concerned : Concerned kind) (limits : Limits) :
    Avoids kind (At known inv depth) (tick limits) fun _ => True := by
  intro s start
  have kept : At known inv depth { s with steps := s.steps + 1 } :=
    ⟨⟨start.1.bound, start.1.host⟩, start.2⟩
  unfold tick
  cases limits.maxSteps with
  | none => exact ⟨trivial, kept⟩
  | some limit =>
      dsimp only
      split
      · have other : kind ≠ .stepLimitExceeded := concerned.ne (by decide)
        exact Ne.symm other
      · exact ⟨trivial, kept⟩

/-- A node avoids what its evaluation avoids one level deeper, given a free level. -/
theorem avoids_nested {limits : Limits} {span : Span} {p : Eval σ α} {post : α → Prop}
    (concerned : Concerned kind) (room : kind = .stackOverflow → depth < limits.maxDepth)
    (inside : Avoids kind (At known inv (depth + 1)) p post) :
    Avoids kind (At known inv depth) (nested limits span p) post := by
  intro s start
  obtain ⟨within, level⟩ := start
  unfold nested
  split
  · next full =>
      -- the only error that nesting itself raises
      intro same
      have free := room same.symm
      omega
  · have deeper : At known inv (depth + 1) { s with depth := s.depth + 1 } :=
      ⟨⟨within.bound, within.host⟩, by rw [← level]⟩
    have outcome := (avoids_tick concerned limits).bind (fun _ _ => inside) _ deeper
    split
    · next a s' ran =>
        rw [ran] at outcome
        obtain ⟨value, within', level'⟩ := outcome
        exact ⟨value, ⟨within'.bound, within'.host⟩, by simp [level']⟩
    · next halt s' ran =>
        rw [ran] at outcome
        cases halt <;> exact outcome

theorem avoids_lookup (concerned : Concerned kind) (name : String) :
    Avoids kind (At known inv depth) (lookup name) (·.Known known) := by
  refine avoids_get.bind fun s start => ?_
  cases found : s.env.get? name with
  | some value => exact avoids_pure (start.1.bound name value found)
  | none =>
      have other : kind ≠ .undefinedVariable := concerned.ne (by decide)
      exact avoids_fail (Ne.symm other)

theorem avoids_callee (concerned : Concerned kind) (name : String) :
    Avoids kind (At known inv depth) (callee name) fun f => (Value.native f).Known known := by
  refine (avoids_lookup concerned name).bind fun v isKnown => ?_
  cases v with
  | native f => exact avoids_pure isKnown
  | _ =>
      have other : kind ≠ .notCallable := concerned.ne (by decide)
      exact avoids_fail (Ne.symm other)

theorem avoids_assign (name : String) {value : Value} (isKnown : value.Known known) :
    Avoids kind (At known inv depth) (assign name value) fun _ => True := by
  refine avoids_modify fun s start => ⟨⟨fun name' v found => ?_, start.1.host⟩, start.2⟩
  rw [Environment.get?_assign] at found
  split at found
  · cases found
    exact isKnown
  · exact start.1.bound name' v found

theorem write_error {sink : Sink} {text : String} {e : EvalError}
    (failed : (sink.write text).1 = .error e) : e.kind = .output := by
  unfold Sink.write at failed
  split at failed
  · cases failed
  · dsimp only at failed
    split at failed
    · cases failed
    · cases failed
      rfl

theorem writeAll_error {sink : Sink} {texts : List String} {e : EvalError}
    (failed : (sink.writeAll texts).1 = .error e) : e.kind = .output := by
  induction texts generalizing sink with
  | nil => cases failed
  | cons text texts ih =>
      unfold Sink.writeAll at failed
      split at failed
      · exact ih failed
      · next ran =>
          cases failed
          exact write_error (congrArg Prod.fst ran)

theorem flush_error {sink : Sink} {e : EvalError} (failed : sink.flush = .error e) :
    e.kind = .output := by
  unfold Sink.flush at failed
  split at failed <;> cases failed
  rfl

/-- Calling a known function on known values gives a known value, if any. -/
theorem avoids_invoke (concerned : Concerned kind) {host : Host σ}
    (spares : host.Spares kind known inv) {f : Native} (isKnown : (Value.native f).Known known)
    {args : List Value} (knownArgs : ∀ v ∈ args, v.Known known) :
    Avoids kind (At known inv depth) (invoke host f args) fun result =>
      ∀ v ∈ result, v.Known known := by
  intro s start
  unfold invoke
  cases handle : f.handle with
  | write =>
      change Spared kind _ _
        ((ofExcept (writeLines s.sink args).1 >>= fun _ => pure none : Eval σ _)
          { s with sink := (writeLines s.sink args).2 })
      refine Avoids.bind (avoids_ofExcept (fun _ _ => trivial) ?_)
        (fun _ _ => avoids_pure (by simp)) _ ⟨⟨start.1.bound, start.1.host⟩, start.2⟩
      intro e failed
      rw [writeAll_error failed]
      have other : kind ≠ .output := concerned.ne (by decide)
      exact Ne.symm other
  | host index =>
      have isKnownIndex := isKnown index handle
      have kept := spares.keeps index args s.sink s.host isKnownIndex start.1.host knownArgs
      refine avoids_ofExcept ?_ ?_ _ ⟨⟨start.1.bound, kept⟩, start.2⟩
      · intro result given v mem
        rw [Option.mem_def.mp mem] at given
        exact spares.gives index args s.sink s.host isKnownIndex start.1.host knownArgs v given
      · exact spares.raises index args s.sink s.host isKnownIndex start.1.host knownArgs

end

end Eval

end TinyScript
