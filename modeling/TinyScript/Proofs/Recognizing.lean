import TinyScript.Proofs.Spelling

/-!
# Reading and refusing

What recognizers do at a cursor, without the frontier that they report.  Each
combinator has a law that says what it reads in terms of what its parts read,
and one that says what it refuses.
-/

namespace TinyScript.Recognizer

variable {α β : Type}

/-- A recognizer reads a value at a cursor and leads to another cursor. -/
def Reads (p : Recognizer α) (c : Cursor) (a : α) (c' : Cursor) : Prop :=
  (p c).result = some (a, c')

def Refuses (p : Recognizer α) (c : Cursor) : Prop := (p c).result = none

theorem refuses_of_not_reads {p : Recognizer α} {c : Cursor}
    (nothing : ∀ a c', ¬ p.Reads c a c') : p.Refuses c := by
  cases outcome : (p c).result with
  | none => exact outcome
  | some r => exact absurd outcome (nothing r.1 r.2)

theorem Refuses.not_reads {p : Recognizer α} {c c' : Cursor} {a : α} (refused : p.Refuses c) :
    ¬ p.Reads c a c' := by
  intro read
  exact absurd (Eq.trans (Eq.symm refused) read) (by simp)

/-- A recognizer reads at most one value at a cursor. -/
theorem Reads.unique {p : Recognizer α} {c c₁ c₂ : Cursor} {a b : α} (first : p.Reads c a c₁)
    (second : p.Reads c b c₂) : a = b ∧ c₁ = c₂ := by
  have same := Option.some.inj (Eq.trans (Eq.symm first) second)
  exact Prod.mk.inj same

@[simp]
theorem reads_pure {a b : α} {c c' : Cursor} :
    (pure a : Recognizer α).Reads c b c' ↔ b = a ∧ c' = c := by
  change some (a, c) = some (b, c') ↔ _
  rw [Option.some.injEq, Prod.mk.injEq]
  exact ⟨fun same => ⟨same.1.symm, same.2.symm⟩, fun same => ⟨same.1.symm, same.2.symm⟩⟩

theorem bind_result (p : Recognizer α) (f : α → Recognizer β) (c : Cursor) :
    ((p >>= f) c).result = (p c).result.bind fun r => (f r.1 r.2).result := by
  change (Recognizer.bind p f c).result = _
  unfold Recognizer.bind
  cases p c with
  | mk result frontier => cases result <;> rfl

@[simp]
theorem reads_bind {p : Recognizer α} {f : α → Recognizer β} {c c'' : Cursor} {b : β} :
    (p >>= f).Reads c b c'' ↔ ∃ a c', p.Reads c a c' ∧ (f a).Reads c' b c'' := by
  unfold Reads
  rw [bind_result, Option.bind_eq_some_iff, Prod.exists]

theorem refuses_bind {p : Recognizer α} {f : α → Recognizer β} {c : Cursor} :
    (p >>= f).Refuses c ↔ p.Refuses c ∨ ∃ a c', p.Reads c a c' ∧ (f a).Refuses c' := by
  unfold Refuses Reads
  rw [bind_result]
  cases (p c).result with
  | none => simp
  | some r =>
      simp only [Option.bind_some, Option.some.injEq, reduceCtorEq, false_or]
      constructor
      · intro refused
        exact ⟨r.1, r.2, rfl, refused⟩
      · rintro ⟨a, c', rfl, refused⟩
        exact refused

@[simp]
theorem reads_map {f : α → β} {p : Recognizer α} {c c' : Cursor} {b : β} :
    (f <$> p).Reads c b c' ↔ ∃ a, p.Reads c a c' ∧ b = f a := by
  change (p >>= fun a => pure (f a)).Reads c b c' ↔ _
  rw [reads_bind]
  constructor
  · rintro ⟨a, c₁, read, returned⟩
    obtain ⟨rfl, rfl⟩ := reads_pure.mp returned
    exact ⟨a, read, rfl⟩
  · rintro ⟨a, read, rfl⟩
    exact ⟨a, c', read, reads_pure.mpr ⟨rfl, rfl⟩⟩

@[simp]
theorem refuses_map {f : α → β} {p : Recognizer α} {c : Cursor} :
    (f <$> p).Refuses c ↔ p.Refuses c := by
  change (p >>= fun a => pure (f a)).Refuses c ↔ _
  rw [refuses_bind]
  constructor
  · rintro (refused | ⟨a, c', _, impossible⟩)
    · exact refused
    · cases impossible
  · exact .inl

theorem orElse_result (p q : Recognizer α) (c : Cursor) :
    ((p <|> q) c).result = (p c).result.or (q c).result := by
  change (Recognizer.orElse p (fun _ => q) c).result = _
  unfold Recognizer.orElse
  cases p c with
  | mk result frontier => cases result <;> rfl

@[simp]
theorem reads_orElse {p q : Recognizer α} {c c' : Cursor} {a : α} :
    (p <|> q).Reads c a c' ↔ p.Reads c a c' ∨ p.Refuses c ∧ q.Reads c a c' := by
  unfold Reads Refuses
  rw [orElse_result]
  cases (p c).result <;> simp

@[simp]
theorem refuses_orElse {p q : Recognizer α} {c : Cursor} :
    (p <|> q).Refuses c ↔ p.Refuses c ∧ q.Refuses c := by
  unfold Refuses
  rw [orElse_result, Option.or_eq_none_iff]

theorem expecting_result (rule : Rule) (p : Recognizer α) (c : Cursor) :
    (expecting rule p c).result = (p c).result := by
  unfold expecting
  cases p c with
  | mk result frontier => cases result <;> rfl

@[simp]
theorem reads_expecting {rule : Rule} {p : Recognizer α} {c c' : Cursor} {a : α} :
    (expecting rule p).Reads c a c' ↔ p.Reads c a c' := by
  unfold Reads
  rw [expecting_result]

@[simp]
theorem refuses_expecting {rule : Rule} {p : Recognizer α} {c : Cursor} :
    (expecting rule p).Refuses c ↔ p.Refuses c := by
  unfold Refuses
  rw [expecting_result]

theorem spanned_result (p : Recognizer α) (c : Cursor) :
    (spanned p c).result =
      (p c).result.map fun r => ((r.1, c.mark.spanTo r.2.mark), r.2) := by
  unfold spanned
  cases p c with
  | mk result frontier => cases result <;> rfl

@[simp]
theorem reads_spanned {p : Recognizer α} {c c' : Cursor} {a : α × Span} :
    (spanned p).Reads c a c' ↔ p.Reads c a.1 c' ∧ a.2 = c.mark.spanTo c'.mark := by
  unfold Reads
  rw [spanned_result]
  cases (p c).result with
  | none => simp
  | some r =>
      simp only [Option.map_some, Option.some.injEq, Prod.ext_iff]
      constructor
      · rintro ⟨⟨value, span⟩, next⟩
        exact ⟨⟨value, next⟩, by rw [← span, next]⟩
      · rintro ⟨⟨value, next⟩, span⟩
        exact ⟨⟨value, by rw [span, next]⟩, next⟩

@[simp]
theorem refuses_spanned {p : Recognizer α} {c : Cursor} :
    (spanned p).Refuses c ↔ p.Refuses c := by
  unfold Refuses
  rw [spanned_result, Option.map_eq_none_iff]

/-- What a rule makes of the value of its parts and of the region they take. -/
theorem reads_spanned_bind {rule : Rule} {p : Recognizer α} {f : α × Span → Recognizer β}
    {c c' : Cursor} {b : β} :
    (spanned (expecting rule p) >>= f).Reads c b c' ↔
      ∃ a c₁, p.Reads c a c₁ ∧ (f (a, c.mark.spanTo c₁.mark)).Reads c₁ b c' := by
  rw [reads_bind]
  constructor
  · rintro ⟨⟨a, span⟩, c₁, read, made⟩
    obtain ⟨read, rfl⟩ := reads_spanned.mp read
    exact ⟨a, c₁, reads_expecting.mp read, made⟩
  · rintro ⟨a, c₁, read, made⟩
    exact ⟨(a, _), c₁, reads_spanned.mpr ⟨reads_expecting.mpr read, rfl⟩, made⟩

@[simp]
theorem not_reads_refuse {c c' : Cursor} {a : α} : ¬ (refuse : Recognizer α).Reads c a c' := by
  intro read
  cases read

@[simp]
theorem reads_withDefault {default : α} {p : Recognizer α} {c c' : Cursor} {a : α} :
    (withDefault default p).Reads c a c' ↔
      p.Reads c a c' ∨ p.Refuses c ∧ a = default ∧ c' = c := by
  rw [withDefault, reads_orElse, reads_pure]

@[simp]
theorem reads_trivia {c c' : Cursor} {u : Unit} : trivia.Reads c u c' ↔ c' = c.skip := by
  change some ((), c.skip) = some (u, c') ↔ _
  rw [Option.some.injEq, Prod.mk.injEq]
  exact ⟨fun same => same.2.symm, fun same => ⟨rfl, same.symm⟩⟩

theorem reads_trivia_bind {f : Unit → Recognizer α} {c c' : Cursor} {a : α} :
    (trivia >>= f).Reads c a c' ↔ (f ()).Reads c.skip a c' := by
  rw [reads_bind]
  constructor
  · rintro ⟨_, _, skipped, read⟩
    rwa [reads_trivia.mp skipped] at read
  · intro read
    exact ⟨(), c.skip, reads_trivia.mpr rfl, read⟩

theorem lexeme_result (scan : Lexeme.Scan) (c : Cursor) :
    (lexeme scan c).result =
      (scan c.rest).map fun r => (String.ofList r.1, ⟨c.mark.advance r.1, r.2⟩) := by
  unfold lexeme
  cases scan c.rest <;> rfl

@[simp]
theorem reads_token {rule : Rule} {scan : Lexeme.Scan} {c c' : Cursor} {text : String} :
    (token rule scan).Reads c text c' ↔
      scan c.rest = some (text.toList, c'.rest) ∧ c'.mark = c.mark.advance text.toList := by
  rw [token, reads_expecting, Reads, lexeme_result, Option.map_eq_some_iff]
  constructor
  · rintro ⟨⟨u, s⟩, found, same⟩
    cases same
    exact ⟨by simpa using found, by simp⟩
  · rintro ⟨found, marked⟩
    refine ⟨_, found, ?_⟩
    cases c' with
    | mk mark rest => simp_all

@[simp]
theorem refuses_token {rule : Rule} {scan : Lexeme.Scan} {c : Cursor} :
    (token rule scan).Refuses c ↔ scan c.rest = none := by
  rw [token, refuses_expecting, Refuses, lexeme_result, Option.map_eq_none_iff]

theorem symbol_result (chars : List Char) (c : Cursor) :
    (symbol chars c).result =
      (Lexeme.exactly chars c.rest).map fun r => ((), ⟨c.mark.advance r.1, r.2⟩) := by
  change ((lexeme (Lexeme.exactly chars) >>= fun _ => pure ()) c).result = _
  rw [bind_result, lexeme_result]
  cases Lexeme.exactly chars c.rest <;> rfl

@[simp]
theorem reads_symbol {chars : List Char} {c c' : Cursor} {u : Unit} :
    (symbol chars).Reads c u c' ↔
      Lexeme.exactly chars c.rest = some (chars, c'.rest) ∧ c'.mark = c.mark.advance chars := by
  rw [Reads, symbol_result, Option.map_eq_some_iff]
  constructor
  · rintro ⟨⟨v, s⟩, found, same⟩
    obtain ⟨rest, prefixed, split⟩ := Option.map_eq_some_iff.mp found
    cases split
    cases same
    exact ⟨found, rfl⟩
  · rintro ⟨found, marked⟩
    refine ⟨_, found, ?_⟩
    cases c' with
    | mk mark rest =>
        cases marked
        rfl

theorem reads_symbol_bind {chars : List Char} {f : Unit → Recognizer α} {c c' : Cursor} {a : α} :
    (symbol chars >>= f).Reads c a c' ↔
      ∃ c₁, (symbol chars).Reads c () c₁ ∧ (f ()).Reads c₁ a c' := by
  rw [reads_bind]
  constructor
  · rintro ⟨_, c₁, found, read⟩
    exact ⟨c₁, found, read⟩
  · rintro ⟨c₁, found, read⟩
    exact ⟨(), c₁, found, read⟩

@[simp]
theorem refuses_symbol {chars : List Char} {c : Cursor} :
    (symbol chars).Refuses c ↔ Lexeme.exactly chars c.rest = none := by
  rw [Refuses, symbol_result, Option.map_eq_none_iff]

@[simp]
theorem reads_endOfInput {c c' : Cursor} {u : Unit} :
    endOfInput.Reads c u c' ↔ c.rest = [] ∧ c' = c := by
  refine Iff.trans reads_expecting ?_
  cases ahead : c.rest with
  | nil => simp [Reads, ahead, eq_comm]
  | cons d more => simp [Reads, ahead]

/-! ## Repetitions -/

/-- Values read one after the other, with trivia in front of each. -/
inductive ReadsMore (p : Recognizer α) : Cursor → List α → Cursor → Prop where
  | done (c : Cursor) : ReadsMore p c [] c
  | more {c c₁ c' : Cursor} {a : α} {as : List α} (first : p.Reads c.skip a c₁)
      (others : ReadsMore p c₁ as c') : ReadsMore p c (a :: as) c'

/-- What a repetition reads are values one after the other, behind those already found. -/
theorem manyMore_sound {p : Recognizer α} {bound : Nat} {found as : List α} {frontier : Frontier}
    {c c' : Cursor} (read : (manyMore p bound found frontier c).result = some (as, c')) :
    ∃ others, as = found.reverse ++ others ∧ ReadsMore p c others c' := by
  induction bound generalizing found frontier c with
  | zero =>
      cases read
      exact ⟨[], by simp, .done _⟩
  | succ bound ih =>
      unfold manyMore at read
      split at read
      · cases read
        exact ⟨[], by simp, .done _⟩
      · next a c₁ f item =>
          have first : (trivia >>= fun _ => p).Reads c a c₁ := congrArg Reply.result item
          obtain ⟨others, split, more⟩ := ih read
          exact ⟨a :: others, by simp [split], .more (reads_trivia_bind.mp first) more⟩

/-- A repetition reads all values up to the first that is refused, if the bound allows it. -/
theorem manyMore_complete {p : Recognizer α} {bound : Nat} {found as : List α}
    {frontier : Frontier} {c c' : Cursor} (more : ReadsMore p c as c') (stop : p.Refuses c'.skip)
    (enough : as.length ≤ bound) :
    (manyMore p bound found frontier c).result = some (found.reverse ++ as, c') := by
  induction more generalizing bound found frontier with
  | done c =>
      cases bound with
      | zero => simp [manyMore]
      | succ bound =>
          have refused : (trivia >>= fun _ => p).Refuses c :=
            refuses_bind.mpr (.inr ⟨(), c.skip, reads_trivia.mpr rfl, stop⟩)
          unfold manyMore
          split
          · simp
          · next item => exact absurd (refused.symm.trans (congrArg Reply.result item)) (by simp)
  | @more c c₁ c' a as first others ih =>
      cases bound with
      | zero => simp at enough
      | succ bound =>
          have read : (trivia >>= fun _ => p).Reads c a c₁ := reads_trivia_bind.mpr first
          unfold manyMore
          split
          · next item => exact absurd (read.symm.trans (congrArg Reply.result item)) (by simp)
          · next a' c₂ f item =>
              have same := read.symm.trans (congrArg Reply.result item)
              cases same
              rw [ih stop (Nat.le_of_succ_le_succ enough)]
              simp

/-- What a repetition reads: nothing, or a first value and further ones. -/
theorem Reads.of_many {p : Recognizer α} {bound : Nat} {as : List α} {c c' : Cursor}
    (read : (many bound p).Reads c as c') :
    (as = [] ∧ c' = c) ∨
      ∃ a others c₁, as = a :: others ∧ p.Reads c a c₁ ∧ ReadsMore p c₁ others c' := by
  unfold Reads many at read
  split at read
  · cases read
    exact .inl ⟨rfl, rfl⟩
  · next a c₁ frontier item =>
      obtain ⟨others, split, more⟩ := manyMore_sound read
      exact .inr ⟨a, others, c₁, by simpa using split, congrArg Reply.result item, more⟩

theorem reads_many_nil {p : Recognizer α} {bound : Nat} {c : Cursor} (stop : p.Refuses c) :
    (many bound p).Reads c [] c := by
  unfold Reads many
  split
  · rfl
  · next item => exact absurd (stop.symm.trans (congrArg Reply.result item)) (by simp)

/-- A repetition reads all values up to the first that is refused. -/
theorem reads_many_cons {p : Recognizer α} {bound : Nat} {a : α} {others : List α}
    {c c₁ c' : Cursor} (first : p.Reads c a c₁) (more : ReadsMore p c₁ others c')
    (stop : p.Refuses c'.skip) (enough : others.length ≤ bound) :
    (many bound p).Reads c (a :: others) c' := by
  unfold Reads many
  split
  · next item => exact absurd (first.symm.trans (congrArg Reply.result item)) (by simp)
  · next a' c₂ frontier item =>
      have same := first.symm.trans (congrArg Reply.result item)
      cases same
      exact manyMore_complete more stop enough

end TinyScript.Recognizer
