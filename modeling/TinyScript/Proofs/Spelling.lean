import TinyScript.Proofs.Rendering

/-!
# Skipping trivia

What a reader skips in front of a token are trivia, and where a text renders
tokens it skips exactly the trivia in front of the first of them.  `Spells`
and `StandsAt` are the two forms in which a rendering is passed from one
recognizer to the next: before and after the trivia are skipped.
-/

namespace TinyScript

def Cursor.skip (c : Cursor) : Cursor := skipTrivia false c.mark c.rest

/--
The characters skipped are trivia, and those skipped inside of a comment are
the rest of the comment and trivia behind it.  A comment is cut short only by
the end of the text.
-/
theorem skipTrivia_splits (mark : Mark) (s : List Char) :
    (∃ w, s = w ++ (skipTrivia false mark s).rest ∧
      Trivia (skipTrivia false mark s).rest.isEmpty w) ∧
    ((∃ body w, '\n' ∉ body ∧ s = body ++ '\n' :: (w ++ (skipTrivia true mark s).rest) ∧
      Trivia (skipTrivia true mark s).rest.isEmpty w) ∨
      ('\n' ∉ s ∧ (skipTrivia true mark s).rest = [])) := by
  induction s generalizing mark with
  | nil => exact ⟨⟨[], rfl, .nil⟩, .inr ⟨by simp, rfl⟩⟩
  | cons c rest ih =>
      constructor
      · rw [skipTrivia, if_neg Bool.false_ne_true]
        split
        · next blank =>
            obtain ⟨w, split, trivia⟩ := (ih (mark.step c)).1
            refine ⟨c :: w, ?_, .blank blank trivia⟩
            rw [List.cons_append, ← split]
        · split
          · next slashes =>
              obtain ⟨first, second⟩ : c = '/' ∧ ∃ more, rest = '/' :: more := by
                cases rest with
                | nil => simp at slashes
                | cons d more => simpa using slashes
              obtain ⟨more, second⟩ := second
              subst first second
              rcases (ih (mark.step '/')).2 with
                ⟨body, w, oneLine, split, trivia⟩ | ⟨oneLine, atEnd⟩
              · cases body with
                | nil => simp at split
                | cons d body =>
                    obtain ⟨same, split⟩ := List.cons.inj split
                    subst same
                    refine ⟨'/' :: '/' :: (body ++ '\n' :: w), ?_, .comment ?_ trivia⟩
                    · simpa using split
                    · exact fun mem => oneLine (List.mem_cons_of_mem _ mem)
              · rw [atEnd]
                refine ⟨'/' :: '/' :: more, by simp, .lastComment ?_⟩
                exact fun mem => oneLine (List.mem_cons_of_mem _ mem)
          · exact ⟨[], rfl, .nil⟩
      · rw [skipTrivia, if_pos rfl]
        by_cases newline : c = '\n'
        · subst newline
          obtain ⟨w, split, trivia⟩ := (ih (mark.step '\n')).1
          refine .inl ⟨[], w, by simp, ?_, trivia⟩
          exact congrArg (List.cons '\n') split
        · rw [bne_iff_ne.mpr newline]
          rcases (ih (mark.step c)).2 with ⟨body, w, oneLine, split, trivia⟩ | ⟨oneLine, atEnd⟩
          · refine .inl ⟨c :: body, w, ?_, ?_, trivia⟩
            · simp [oneLine, Ne.symm newline]
            · exact congrArg (List.cons c) split
          · exact .inr ⟨by simp [oneLine, Ne.symm newline], atEnd⟩

/-- Skipping goes over trivia, which may run into the end of the text if nothing is left. -/
theorem Cursor.skip_splits (c : Cursor) :
    ∃ w, c.rest = w ++ c.skip.rest ∧ Trivia c.skip.rest.isEmpty w :=
  (skipTrivia_splits c.mark c.rest).1

/-- Where skipping ends: in front of a character that neither is a blank nor opens a comment. -/
def Stops : List Char → Prop
  | [] => True
  | c :: _ => Lexeme.isBlank c = false ∧ c ≠ '/'

instance : DecidablePred Stops
  | [] => inferInstanceAs (Decidable True)
  | c :: _ => inferInstanceAs (Decidable (Lexeme.isBlank c = false ∧ c ≠ '/'))

theorem skipTrivia_of_stops (mark : Mark) {s : List Char} (stops : Stops s) :
    skipTrivia false mark s = ⟨mark, s⟩ := by
  cases s with
  | nil => rfl
  | cons c rest => simp [skipTrivia, stops.1, stops.2]

theorem skipTrivia_comment (mark : Mark) {body : List Char} (oneLine : '\n' ∉ body)
    (s : List Char) :
    ∃ mark', skipTrivia true mark (body ++ '\n' :: s) = skipTrivia false mark' s := by
  induction body generalizing mark with
  | nil => exact ⟨mark.step '\n', by simp [skipTrivia]⟩
  | cons c body ih =>
      rw [List.mem_cons, not_or] at oneLine
      obtain ⟨mark', same⟩ := ih (mark.step c) oneLine.2
      refine ⟨mark', ?_⟩
      rw [List.cons_append, skipTrivia, if_pos rfl, bne_iff_ne.mpr (Ne.symm oneLine.1), same]

theorem skipTrivia_lastComment (mark : Mark) {body : List Char} (oneLine : '\n' ∉ body) :
    (skipTrivia true mark body).rest = [] := by
  induction body generalizing mark with
  | nil => rfl
  | cons c body ih =>
      rw [List.mem_cons, not_or] at oneLine
      rw [skipTrivia, if_pos rfl, bne_iff_ne.mpr (Ne.symm oneLine.1)]
      exact ih (mark.step c) oneLine.2

/-- Trivia are skipped as a whole. -/
theorem skipTrivia_append {atEnd : Bool} {w s : List Char} (trivia : Trivia atEnd w)
    (last : atEnd = true → s = []) (stops : Stops s) (mark : Mark) :
    (skipTrivia false mark (w ++ s)).rest = s := by
  induction trivia generalizing mark with
  | nil => rw [List.nil_append, skipTrivia_of_stops mark stops]
  | @blank atEnd c w isBlank others ih =>
      rw [List.cons_append, skipTrivia, if_neg Bool.false_ne_true, if_pos isBlank]
      exact ih last (mark.step c)
  | @comment atEnd body w oneLine others ih =>
      have slash : '\n' ∉ '/' :: body := by simp [oneLine]
      obtain ⟨mark', same⟩ := skipTrivia_comment (mark.step '/') slash (w ++ s)
      have opened : skipTrivia false mark ('/' :: '/' :: (body ++ '\n' :: w) ++ s) =
          skipTrivia true (mark.step '/') ('/' :: body ++ '\n' :: (w ++ s)) := by
        simp [skipTrivia, Lexeme.isBlank]
      rw [opened, same]
      exact ih last mark'
  | @lastComment body oneLine =>
      have slash : '\n' ∉ '/' :: body := by simp [oneLine]
      rw [last rfl, List.append_nil]
      have opened : skipTrivia false mark ('/' :: '/' :: body) =
          skipTrivia true (mark.step '/') ('/' :: body) := by
        simp [skipTrivia, Lexeme.isBlank]
      rw [opened]
      exact skipTrivia_lastComment _ slash

theorem Trivia.append {atEnd : Bool} {u w : List Char} (first : Trivia false u)
    (second : Trivia atEnd w) : Trivia atEnd (u ++ w) := by
  generalize complete : false = closed at first
  induction first with
  | nil => exact second
  | blank isBlank others ih => exact .blank isBlank (ih complete)
  | @comment closed body u oneLine others ih =>
      have joined := Trivia.comment oneLine (ih complete)
      simpa using joined
  | lastComment => cases complete

/-- A rendering remains one behind further trivia. -/
theorem Renders.prepend {afterKeyword : Bool} {ts : List Token} {w s : List Char}
    (trivia : Trivia false w) (rendered : Renders afterKeyword ts s) :
    Renders false ts (w ++ s) := by
  cases rendered with
  | ending gap => exact .ending (trivia.append gap)
  | token gap apart rest =>
      rw [← List.append_assoc]
      exact .token (trivia.append gap) (fun impossible => by cases impossible) rest

/-- Characters in front of others decide whether a word is continued. -/
theorem continuesWord_append {u : List Char} (nonempty : u ≠ []) (s : List Char) :
    Lexeme.continuesWord (u ++ s) = Lexeme.continuesWord u := by
  cases u with
  | nil => exact absurd rfl nonempty
  | cons c u => rfl

/-- A rendering that does not continue a word may stand behind a keyword. -/
theorem Renders.behindKeyword {ts : List Token} {s : List Char} (rendered : Renders false ts s)
    (apart : Lexeme.continuesWord s = false) (afterKeyword : Bool) :
    Renders afterKeyword ts s := by
  cases rendered with
  | ending gap => exact .ending gap
  | @token _ t ts w s gap _ rest =>
      refine .token gap (fun _ starts empty => ?_) rest
      subst empty
      have nonempty : t.text ≠ [] := by
        intro empty
        rw [Token.startsWord, empty] at starts
        cases starts
      rw [List.nil_append, continuesWord_append nonempty] at apart
      exact Bool.false_ne_true (apart.symm.trans starts)

/-- The characters ahead render tokens, and do not end before the tokens do. -/
def Spells (ts : List Token) (s : List Char) : Prop :=
  Renders false ts s ∧ (s = [] → ts = [])

/-- What is spelled behind skipped trivia is spelled in front of them. -/
theorem Spells.of_skip {ts : List Token} {c : Cursor} (spelled : Spells ts c.skip.rest) :
    Spells ts c.rest := by
  obtain ⟨w, split, trivia⟩ := c.skip_splits
  obtain ⟨rendered, last⟩ := spelled
  constructor
  · rw [split]
    cases remaining : c.skip.rest with
    | nil =>
        rw [remaining] at trivia
        rw [last remaining, List.append_nil]
        exact .ending trivia
    | cons d more =>
        rw [remaining] at trivia rendered
        exact rendered.prepend trivia
  · intro empty
    rw [empty] at split
    exact last (List.append_eq_nil_iff.mp split.symm).2

/-- One more token is spelled by its text; a keyword must not be continued. -/
theorem Spells.cons {t : Token} {ts : List Token} {s : List Char} (spelled : Spells ts s)
    (nonempty : t.text ≠ []) (apart : t.isKeyword = true → Lexeme.continuesWord s = false) :
    Spells (t :: ts) (t.text ++ s) := by
  constructor
  · have behind : Renders t.isKeyword ts s := by
      cases keyword : t.isKeyword with
      | false => exact spelled.1
      | true => exact spelled.1.behindKeyword (apart keyword) true
    exact .token .nil (fun impossible => by cases impossible) behind
  · intro empty
    exact absurd (List.append_eq_nil_iff.mp empty).1 nonempty

/--
The characters between two cursors are tokens and trivia: whatever is spelled
behind them is spelled, after these tokens, in front of them.
-/
def Covers (ts : List Token) (c c' : Cursor) : Prop :=
  ∀ us, Spells us c'.rest → Spells (ts ++ us) c.rest

namespace Covers

theorem refl (c : Cursor) : Covers [] c c := fun _ spelled => spelled

theorem skip (c : Cursor) : Covers [] c c.skip := fun _ spelled => spelled.of_skip

theorem trans {ts us : List Token} {c c₁ c' : Cursor} (first : Covers ts c c₁)
    (second : Covers us c₁ c') : Covers (ts ++ us) c c' := by
  intro vs spelled
  rw [List.append_assoc]
  exact first _ (second _ spelled)

theorem cons {t : Token} {ts : List Token} {c c₁ c' : Cursor} (first : Covers [t] c c₁)
    (others : Covers ts c₁.skip c') : Covers (t :: ts) c c' :=
  first.trans ((Covers.skip c₁).trans others)

theorem append {ts us : List Token} {c c₁ c' : Cursor} (first : Covers ts c c₁)
    (second : Covers us c₁.skip c') : Covers (ts ++ us) c c' :=
  first.trans ((Covers.skip c₁).trans second)

theorem token {t : Token} {c c' : Cursor} (split : c.rest = t.text ++ c'.rest)
    (nonempty : t.text ≠ [])
    (apart : t.isKeyword = true → Lexeme.continuesWord c'.rest = false) : Covers [t] c c' := by
  intro us spelled
  rw [split]
  exact spelled.cons nonempty apart

end Covers

/-- The first of the tokens stands directly ahead, and what is behind it renders the others. -/
def StandsAt : List Token → List Char → Prop
  | [], s => s = []
  | t :: ts, s => ∃ r, s = t.text ++ r ∧ Renders t.isKeyword ts r

def Token.Solid (t : Token) : Prop := t.text ≠ [] ∧ Stops t.text

instance (t : Token) : Decidable t.Solid := inferInstanceAs (Decidable (t.text ≠ [] ∧ Stops t.text))

/-- Skipping leads from in front of the trivia to the first token. -/
theorem Renders.skip {afterKeyword : Bool} {t : Token} {ts : List Token} {c : Cursor}
    (rendered : Renders afterKeyword (t :: ts) c.rest) (solid : t.Solid) :
    StandsAt (t :: ts) c.skip.rest := by
  generalize ahead : c.rest = s at rendered
  cases rendered with
  | @token _ _ _ w r gap apart rest =>
      have stops : Stops (t.text ++ r) := by
        obtain ⟨nonempty, stops⟩ := solid
        cases text : t.text with
        | nil => exact absurd text nonempty
        | cons d more =>
            rw [text] at stops
            exact stops
      refine ⟨r, ?_, rest⟩
      rw [Cursor.skip, ahead]
      exact skipTrivia_append gap (fun impossible => by cases impossible) stops c.mark

/-- Skipping behind the last token leads to the end of the text. -/
theorem Renders.skip_nil {afterKeyword : Bool} {c : Cursor}
    (rendered : Renders afterKeyword [] c.rest) : c.skip.rest = [] := by
  generalize ahead : c.rest = s at rendered
  cases rendered with
  | ending gap =>
      rw [Cursor.skip, ahead, ← List.append_nil s]
      exact skipTrivia_append gap (fun _ => rfl) trivial c.mark

theorem Trivia.first {atEnd : Bool} {c : Char} {w : List Char} (trivia : Trivia atEnd (c :: w)) :
    Lexeme.isBlank c = true ∨ c = '/' := by
  cases trivia with
  | blank isBlank others => exact .inl isBlank
  | comment oneLine others => exact .inr rfl
  | lastComment oneLine => exact .inr rfl

/--
What stands directly behind a token: the trivia in front of the next token, or
the first character of the next token if it may touch the one before.
-/
theorem Renders.first {afterKeyword : Bool} {t : Token} {ts : List Token} {s : List Char}
    (rendered : Renders afterKeyword (t :: ts) s) (nonempty : t.text ≠ []) :
    ∃ d more, s = d :: more ∧ (Lexeme.isBlank d = true ∨ d = '/' ∨
      t.text.head? = some d ∧ (afterKeyword = true → t.startsWord = false)) := by
  cases rendered with
  | @token _ _ _ w r gap apart rest =>
      cases w with
      | nil =>
          cases text : t.text with
          | nil => exact absurd text nonempty
          | cons d more =>
              refine ⟨d, more ++ r, by simp, .inr (.inr ⟨rfl, fun keyword => ?_⟩)⟩
              cases starts : t.startsWord with
              | false => rfl
              | true => exact absurd rfl (apart keyword starts)
      | cons d w =>
          refine ⟨d, w ++ (t.text ++ r), rfl, ?_⟩
          rcases gap.first with blank | slash
          · exact .inl blank
          · exact .inr (.inl slash)

/-- Neither blanks nor slashes continue words. -/
theorem not_wordChar_of_trivia {d : Char} (trivia : Lexeme.isBlank d = true ∨ d = '/') :
    Lexeme.isWordChar d = false := by
  rcases trivia with blank | rfl
  · simp only [Lexeme.isBlank, Bool.or_eq_true, beq_iff_eq] at blank
    rcases blank with ((rfl | rfl) | rfl) | rfl <;> decide
  · decide

/-- A token that must stand apart, or that begins like no word, leaves the word before it. -/
theorem Renders.leavesWord {afterKeyword : Bool} {t : Token} {ts : List Token}
    {s : List Char} (rendered : Renders afterKeyword (t :: ts) s) (nonempty : t.text ≠ [])
    (apart : afterKeyword = true ∨ t.startsWord = false) : Lexeme.continuesWord s = false := by
  obtain ⟨d, more, rfl, first⟩ := rendered.first nonempty
  rcases first with blank | slash | ⟨head, may⟩
  · exact not_wordChar_of_trivia (.inl blank)
  · exact not_wordChar_of_trivia (.inr slash)
  · have starts : t.startsWord = false := apart.elim may id
    cases text : t.text with
    | nil => exact absurd text nonempty
    | cons x xs =>
        rw [text, List.head?_cons, Option.some.injEq] at head
        rw [Token.startsWord, text] at starts
        exact head ▸ starts

end TinyScript
