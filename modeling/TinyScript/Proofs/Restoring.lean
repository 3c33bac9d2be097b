import TinyScript.Proofs.Terminals

/-!
# Reading what stands ahead

Where the tokens of a tree stand ahead, its recognizer reads the tree, its
places apart.  `Restores` is this statement for one recognizer and one tree;
it is proved here for single tokens and for repetitions.
-/

namespace TinyScript

/-- The tokens are rendered ahead, with trivia in front of the first. -/
structure Ahead (ts : List Token) (c : Cursor) : Prop where
  rendered : ∃ afterKeyword, Renders afterKeyword ts c.rest
  solid : ∀ t ∈ ts, t.Solid

/-- The tokens are rendered ahead, with nothing in front of the first. -/
structure Stands (ts : List Token) (c : Cursor) : Prop where
  standing : StandsAt ts c.rest
  solid : ∀ t ∈ ts, t.Solid

theorem Ahead.skip {ts : List Token} {c : Cursor} (ahead : Ahead ts c) : Stands ts c.skip := by
  obtain ⟨⟨afterKeyword, rendered⟩, solid⟩ := ahead
  refine ⟨?_, solid⟩
  cases ts with
  | nil => exact rendered.skip_nil
  | cons t ts => exact rendered.skip (solid t List.mem_cons_self)

theorem Stands.ahead {ts : List Token} {c : Cursor} (stands : Stands ts c) : Ahead ts c := by
  refine ⟨⟨false, ?_⟩, stands.solid⟩
  have standing := stands.standing
  cases ts with
  | nil =>
      rw [show c.rest = [] from standing]
      exact .ending .nil
  | cons t ts =>
      obtain ⟨s, split, rendered⟩ := standing
      rw [split]
      exact .token .nil (fun impossible => by cases impossible) rendered

theorem Stands.behind {t : Token} {ts : List Token} {c c' : Cursor} (stands : Stands (t :: ts) c)
    {afterKeyword : Bool} (rendered : Renders afterKeyword ts c'.rest) : Ahead ts c' :=
  ⟨⟨afterKeyword, rendered⟩, fun u mem => stands.solid u (List.mem_cons_of_mem t mem)⟩

theorem Stands.head {t : Token} {ts : List Token} {c : Cursor} (stands : Stands (t :: ts) c) :
    ∃ d s, c.rest = d :: s ∧ t.text.head? = some d := by
  obtain ⟨s, split, _⟩ := stands.standing
  have nonempty := (stands.solid t List.mem_cons_self).1
  cases text : t.text with
  | nil => exact absurd text nonempty
  | cons d more => exact ⟨d, more ++ s, by rw [split, text]; rfl, rfl⟩

def Cursor.Faces (c : Cursor) (word : String) : Prop :=
  ∃ s, c.rest = word.toList ++ s ∧ (∀ d ∈ word.toList, Lexeme.isWordChar d = true) ∧
    Lexeme.continuesWord s = false

theorem Stands.faces_nil {c : Cursor} (stands : Stands [] c) : c.Faces "" :=
  ⟨[], stands.standing, by simp, rfl⟩

theorem Stands.faces_mark {x : Char} {ts : List Token} {c : Cursor}
    (stands : Stands (.mark x :: ts) c) (other : Lexeme.isWordChar x = false) : c.Faces "" := by
  obtain ⟨d, s, split, same⟩ := stands.head
  cases same
  exact ⟨x :: s, split, by simp, other⟩

/-- A name is the word ahead if the next token does not continue it. -/
theorem Stands.faces_name {name : String} (isName : IsName name) {t : Token} {ts : List Token}
    {c : Cursor} (stands : Stands (.name name :: t :: ts) c) (apart : t.startsWord = false) :
    c.Faces name := by
  obtain ⟨s, split, rendered⟩ := stands.standing
  have nonempty := (stands.solid t (by simp)).1
  exact ⟨s, split, Lexeme.wordChar_of_isName isName, rendered.leavesWord nonempty (.inr apart)⟩

/-- A keyword is the word ahead if a token follows. -/
theorem Stands.faces_keyword {word : String} (isKeyword : word ∈ Lexeme.keywords)
    {ts : List Token} {c : Cursor} (stands : Stands (.keyword word :: ts) c) (more : ts ≠ []) :
    c.Faces word := by
  obtain ⟨t, ts, rfl⟩ := List.exists_cons_of_ne_nil more
  obtain ⟨s, split, rendered⟩ := stands.standing
  have nonempty := (stands.solid t (by simp)).1
  exact ⟨s, split, Lexeme.wordy_keywords word isKeyword, rendered.leavesWord nonempty (.inl rfl)⟩

namespace Grammar

open Recognizer

/-- A mark is refused where a token stands that begins otherwise. -/
theorem refuses_other_mark {x : Char} {t : Token} {ts : List Token} {c : Cursor}
    (stands : Stands (t :: ts) c) (differ : t.text.head? ≠ some x) : (symbol [x]).Refuses c := by
  obtain ⟨d, s, split, same⟩ := stands.head
  refine refuses_mark split fun equal => differ ?_
  rw [same, equal]

theorem refuses_words {rule : Rule} {words : List String} (wordy : Lexeme.Wordy words) {c : Cursor}
    {word : String} (faces : c.Faces word) (other : word ∉ words) :
    (token rule (Lexeme.oneOf words)).Refuses c := by
  obtain ⟨s, split, all, ends⟩ := faces
  rw [refuses_token, split]
  exact Lexeme.oneOf_eq_none wordy all ends (by rwa [String.ofList_toList])

theorem refuses_word {rule : Rule} {expected : String} (isKeyword : expected ∈ Lexeme.keywords)
    {c : Cursor} {word : String} (faces : c.Faces word) (other : word ≠ expected) :
    (token rule (Lexeme.word expected)).Refuses c := by
  rw [Lexeme.word_eq_oneOf]
  exact refuses_words (Lexeme.wordy_keyword isKeyword) faces (by simpa using other)

/-- No name is read where the word ahead is none. -/
theorem refuses_no_name {c : Cursor} {word : String} (faces : c.Faces word)
    (other : ¬ IsName word) : identifier.Refuses c := by
  obtain ⟨s, split, all, ends⟩ := faces
  refine refuses_of_not_reads fun ident c' read => other ?_
  obtain ⟨split', isName, ends'⟩ :=
    Lexeme.identifier_eq_some_iff.mp (reads_identifier.mp read).1
  rw [String.ofList_toList] at isName
  have same := Lexeme.run_unique (split.symm.trans split') all
    (Lexeme.continuesWord_eq_false_iff.mp ends) (Lexeme.wordChar_of_isName isName)
    (Lexeme.continuesWord_eq_false_iff.mp ends')
  rwa [String.toList_inj.mp same.1]

/-- Neither a keyword nor the empty word is a name. -/
theorem not_isName {word : String} (other : word = "" ∨ word ∈ Lexeme.keywords) :
    ¬ IsName word := by
  rintro ⟨⟨d, more, split, _⟩, notKeyword⟩
  rcases other with rfl | isKeyword
  · cases split
  · exact notKeyword isKeyword

/-- No literal is read where the word ahead is none and no digit or quotation mark stands. -/
theorem refuses_no_literal {c : Cursor} {word : String} (faces : c.Faces word)
    (other : word ∉ ["true", "false", "null"]) {d : Char} {s : List Char} (ahead : c.rest = d :: s)
    (notDigit : d.isDigit = false) (notDouble : d ≠ '"') (notSingle : d ≠ '\'') :
    constant.Refuses c := by
  obtain ⟨r, split, all, ends⟩ := faces
  exact refuses_constant ahead notDigit notDouble notSingle split all ends
    (by rwa [String.ofList_toList])

theorem Stands.mark {x : Char} {ts : List Token} {c : Cursor} (stands : Stands (.mark x :: ts) c) :
    ∃ c', (symbol [x]).Reads c () c' ∧ Ahead ts c' := by
  obtain ⟨c', read, rendered⟩ := reads_mark stands.standing
  exact ⟨c', read, stands.behind rendered⟩

theorem Stands.name {name : String} (isName : IsName name) {t : Token} {ts : List Token}
    {c : Cursor} (stands : Stands (.name name :: t :: ts) c) (apart : t.startsWord = false) :
    ∃ ident c', identifier.Reads c ident c' ∧ ident.name = name ∧ Ahead (t :: ts) c' := by
  have nonempty := (stands.solid t (by simp)).1
  obtain ⟨ident, c', read, same, rendered⟩ := reads_name isName stands.standing nonempty apart
  exact ⟨ident, c', read, same, stands.behind rendered⟩

theorem Stands.words (rule : Rule) {words : List String} (wordy : Lexeme.Wordy words)
    {word : String} (mem : word ∈ words) {ts : List Token} {c : Cursor}
    (stands : Stands (.keyword word :: ts) c) (more : ts ≠ []) :
    ∃ c', (token rule (Lexeme.oneOf words)).Reads c word c' ∧ Ahead ts c' := by
  obtain ⟨t, ts, rfl⟩ := List.exists_cons_of_ne_nil more
  have nonempty := (stands.solid t (by simp)).1
  obtain ⟨s, split, ends, rendered⟩ := split_keyword stands.standing nonempty
  refine ⟨⟨c.mark.advance word.toList, s⟩, reads_token.mpr ⟨?_, rfl⟩, stands.behind rendered⟩
  exact (Lexeme.oneOf_eq_some_iff wordy).mpr ⟨by rwa [String.ofList_toList], split, ends⟩

theorem Stands.word (rule : Rule) {word : String} (isKeyword : word ∈ Lexeme.keywords)
    {ts : List Token} {c : Cursor} (stands : Stands (.keyword word :: ts) c) (more : ts ≠ []) :
    ∃ c', (token rule (Lexeme.word word)).Reads c word c' ∧ Ahead ts c' := by
  rw [Lexeme.word_eq_oneOf]
  exact Stands.words rule (Lexeme.wordy_keyword isKeyword) (by simp) stands more

theorem Stands.operator {op : BinOp} {ts : List Token} {c : Cursor}
    (stands : Stands (.operator op :: ts) c) :
    ∃ c', Grammar.operator.Reads c op c' ∧ Ahead ts c' := by
  obtain ⟨c', read, rendered⟩ := reads_operator stands.standing
  exact ⟨c', read, stands.behind rendered⟩

theorem Stands.literal {literal : Literal} (lexical : literal.IsLexical) {ts : List Token}
    {c : Cursor} (stands : Stands (.literal literal :: ts) c)
    (ends : ∀ s, Renders false ts s → EndsLiteral s) :
    ∃ span c', constant.Reads c (.const literal span) c' ∧ Ahead ts c' := by
  obtain ⟨span, c', read, rendered⟩ := reads_standing_literal lexical stands.standing ends
  exact ⟨span, c', read, stands.behind rendered⟩

/--
Where the tokens stand ahead and are followed as they have to be, a value is
read that looks like `v`, and what follows is then rendered ahead.
-/
def Restores {α γ : Type} (p : Recognizer α) (view : α → γ) (tokens : List Token) (v : γ)
    (follow : List Token → Prop) : Prop :=
  ∀ ⦃c : Cursor⦄ ⦃ts : List Token⦄, follow ts → Stands (tokens ++ ts) c →
    ∃ a c', p.Reads c a c' ∧ view a = v ∧ Ahead ts c'

section

variable {α β γ : Type} {p : Recognizer α} {view : α → γ} {tokens : β → List Token} {value : β → γ}
  {follow last : List Token → Prop}

/-- What may follow a value may follow it behind further values. -/
theorem follow_flatMap {bs : List β} (next : ∀ b ∈ bs, ∀ us, follow (tokens b ++ us))
    {ts : List Token} (follows : follow ts) : follow (bs.flatMap tokens ++ ts) := by
  cases bs with
  | nil => exact follows
  | cons b bs =>
      rw [List.flatMap_cons, List.append_assoc]
      exact next b List.mem_cons_self _

/-- Several values are read one after the other if each may follow the one before. -/
theorem readsMore_of_restores {bs : List β}
    (each : ∀ b ∈ bs, Restores p view (tokens b) (value b) follow)
    (next : ∀ b ∈ bs, ∀ us, follow (tokens b ++ us)) {ts : List Token} (follows : follow ts)
    {c : Cursor} (ahead : Ahead (bs.flatMap tokens ++ ts) c) :
    ∃ as c', ReadsMore p c as c' ∧ as.map view = bs.map value ∧ Ahead ts c' := by
  induction bs generalizing c with
  | nil => exact ⟨[], c, .done c, rfl, ahead⟩
  | cons b bs ih =>
      rw [List.flatMap_cons, List.append_assoc] at ahead
      have followsFirst :=
        follow_flatMap (fun b mem => next b (List.mem_cons_of_mem _ mem)) follows
      obtain ⟨a, c₁, first, same, ahead₁⟩ := each b (by simp) followsFirst ahead.skip
      obtain ⟨as, c', others, sameOthers, ahead'⟩ :=
        ih (fun b mem => each b (List.mem_cons_of_mem _ mem))
          (fun b mem => next b (List.mem_cons_of_mem _ mem)) ahead₁
      refine ⟨a :: as, c', .more first others, ?_, ahead'⟩
      rw [List.map_cons, List.map_cons, same, sameOthers]

/-- A repetition reads all values, and stops where none follows. -/
theorem restores_many {bs : List β} {bound : Nat}
    (each : ∀ b ∈ bs, Restores p view (tokens b) (value b) follow)
    (next : ∀ b ∈ bs, ∀ us, follow (tokens b ++ us)) (ending : ∀ ts, last ts → follow ts)
    (stop : ∀ c ts, last ts → Stands ts c → p.Refuses c) (enough : bs.length ≤ bound) :
    Restores (many bound p) (List.map view) (bs.flatMap tokens) (bs.map value) last := by
  intro c ts lasts stands
  cases bs with
  | nil => exact ⟨[], c, reads_many_nil (stop c ts lasts stands), rfl, stands.ahead⟩
  | cons b bs =>
      have followsFirst :=
        follow_flatMap (fun b mem => next b (List.mem_cons_of_mem _ mem)) (ending ts lasts)
      rw [List.flatMap_cons, List.append_assoc] at stands
      obtain ⟨a, c₁, first, same, ahead₁⟩ := each b (by simp) followsFirst stands
      obtain ⟨as, c', others, sameOthers, ahead'⟩ := readsMore_of_restores
        (fun b mem => each b (List.mem_cons_of_mem _ mem))
        (fun b mem => next b (List.mem_cons_of_mem _ mem)) (ending ts lasts) ahead₁
      have lengths : as.length = bs.length := by
        simpa using congrArg List.length sameOthers
      refine ⟨a :: as, c', ?_, ?_, ahead'⟩
      · refine reads_many_cons first others (stop _ ts lasts ahead'.skip) ?_
        rw [List.length_cons] at enough
        omega
      · rw [List.map_cons, List.map_cons, same, sameOthers]

end

end Grammar

end TinyScript
