import TinyScript.Proofs.Lexing
import TinyScript.Proofs.Recognizing
import TinyScript.Reading.Grammar

/-!
# Reading single tokens

For each kind of token, what its recognizer reads is covered by a token of the
right text, and where such a token stands and is not continued it is read.
-/

namespace TinyScript.Grammar

open Recognizer

theorem exactly_cons_ne {x y : Char} (differ : x ≠ y) (symbol chars : List Char) :
    Lexeme.exactly (x :: symbol) (y :: chars) = none := by
  simp [Lexeme.exactly, List.isPrefixOf?, differ]

theorem covers_mark {x : Char} {c c' : Cursor} {u : Unit} (read : (symbol [x]).Reads c u c') :
    Covers [.mark x] c c' := by
  obtain ⟨found, _⟩ := reads_symbol.mp read
  obtain ⟨_, split⟩ := Lexeme.exactly_eq_some_iff.mp found
  exact .token split (List.cons_ne_nil _ _) (fun impossible => by cases impossible)

theorem reads_mark {x : Char} {c : Cursor} {ts : List Token}
    (stands : StandsAt (.mark x :: ts) c.rest) :
    ∃ c', (symbol [x]).Reads c () c' ∧ Renders false ts c'.rest := by
  obtain ⟨s, split, rendered⟩ := stands
  refine ⟨⟨c.mark.advance [x], s⟩, reads_symbol.mpr ⟨?_, rfl⟩, rendered⟩
  exact Lexeme.exactly_eq_some_iff.mpr ⟨rfl, split⟩

theorem refuses_mark {x y : Char} {c : Cursor} {s : List Char} (ahead : c.rest = y :: s)
    (differ : x ≠ y) : (symbol [x]).Refuses c := by
  rw [refuses_symbol, ahead]
  exact exactly_cons_ne differ [] s

theorem covers_keyword {word : String} (visible : word ≠ "") {c c' : Cursor}
    (split : c.rest = word.toList ++ c'.rest) (ends : Lexeme.continuesWord c'.rest = false) :
    Covers [.keyword word] c c' :=
  .token split (fun empty => visible (String.toList_eq_nil_iff.mp empty)) fun _ => ends

/-- A keyword that stands ahead is not continued. -/
theorem split_keyword {word : String} {t : Token} {ts : List Token} {s : List Char}
    (stands : StandsAt (.keyword word :: t :: ts) s) (nonempty : t.text ≠ []) :
    ∃ r, s = word.toList ++ r ∧ Lexeme.continuesWord r = false ∧ Renders true (t :: ts) r := by
  obtain ⟨r, split, rendered⟩ := stands
  exact ⟨r, split, rendered.leavesWord nonempty (.inl rfl), rendered⟩

theorem reads_identifier {c c' : Cursor} {ident : Ident} :
    identifier.Reads c ident c' ↔
      Lexeme.identifier c.rest = some (ident.name.toList, c'.rest) ∧
        c'.mark = c.mark.advance ident.name.toList ∧ ident.span = c.mark.spanTo c'.mark := by
  simp only [identifier, reads_bind, reads_spanned, reads_token, reads_pure, Prod.exists]
  constructor
  · rintro ⟨name, span, c₁, ⟨⟨found, marked⟩, spanned⟩, rfl, rfl⟩
    exact ⟨found, marked, spanned⟩
  · rintro ⟨found, marked, spanned⟩
    exact ⟨ident.name, ident.span, c', ⟨⟨found, marked⟩, spanned⟩, rfl, rfl⟩

theorem covers_identifier {c c' : Cursor} {ident : Ident} (read : identifier.Reads c ident c') :
    IsName ident.name ∧ Covers [.name ident.name] c c' := by
  obtain ⟨found, _⟩ := reads_identifier.mp read
  obtain ⟨split, isName, _⟩ := Lexeme.identifier_eq_some_iff.mp found
  rw [String.ofList_toList] at isName
  refine ⟨isName, .token split (fun empty => ?_) (fun impossible => by cases impossible)⟩
  obtain ⟨⟨d, more, some, _⟩, _⟩ := isName
  exact absurd (some.symm.trans empty) (List.cons_ne_nil d more)

theorem reads_name {name : String} (isName : IsName name) {c : Cursor} {t : Token}
    {ts : List Token} (stands : StandsAt (.name name :: t :: ts) c.rest) (nonempty : t.text ≠ [])
    (apart : t.startsWord = false) :
    ∃ ident c', identifier.Reads c ident c' ∧ ident.name = name ∧
      Renders false (t :: ts) c'.rest := by
  obtain ⟨s, split, rendered⟩ := stands
  have found : Lexeme.identifier c.rest = some (name.toList, s) :=
    Lexeme.identifier_eq_some_iff.mpr
      ⟨split, by rwa [String.ofList_toList], rendered.leavesWord nonempty (.inr apart)⟩
  exact ⟨⟨name, _⟩, ⟨c.mark.advance name.toList, s⟩,
    reads_identifier.mpr ⟨found, rfl, rfl⟩, rfl, rendered⟩

theorem reads_operatorOf {rule : Rule} {op op' : BinOp} {c c' : Cursor} :
    (operatorOf rule op).Reads c op' c' ↔
      op' = op ∧ Lexeme.exactly op.symbol.toList c.rest = some (op.symbol.toList, c'.rest) ∧
        c'.mark = c.mark.advance op.symbol.toList := by
  simp only [operatorOf, reads_expecting, reads_bind, reads_symbol, reads_pure]
  constructor
  · rintro ⟨_, c₁, found, rfl, rfl⟩
    exact ⟨rfl, found⟩
  · rintro ⟨rfl, found⟩
    exact ⟨(), c', found, rfl, rfl⟩

theorem refuses_operatorOf {rule : Rule} {op : BinOp} {c : Cursor} :
    (operatorOf rule op).Refuses c ↔ Lexeme.exactly op.symbol.toList c.rest = none := by
  rw [operatorOf, refuses_expecting, refuses_bind, refuses_symbol]
  constructor
  · rintro (refused | ⟨a, c', _, impossible⟩)
    · exact refused
    · cases impossible
  · exact .inl

theorem covers_operator {c c' : Cursor} {op : BinOp} (read : operator.Reads c op c') :
    Covers [.operator op] c c' := by
  have found : Lexeme.exactly op.symbol.toList c.rest = some (op.symbol.toList, c'.rest) := by
    simp only [operator, reads_orElse, reads_operatorOf] at read
    rcases read with
      read | ⟨_, read | ⟨_, read | ⟨_, read | ⟨_, read | ⟨_, read | ⟨_, read⟩⟩⟩⟩⟩⟩ <;>
      · obtain ⟨rfl, found, _⟩ := read
        exact found
  obtain ⟨_, split⟩ := Lexeme.exactly_eq_some_iff.mp found
  refine .token split ?_ (fun impossible => by cases impossible)
  cases op <;> decide

/-- The operators begin with different characters. -/
theorem refuses_otherOperator {rule : Rule} {op other : BinOp} (differ : other ≠ op) {c : Cursor}
    {s : List Char} (split : c.rest = op.symbol.toList ++ s) :
    (operatorOf rule other).Refuses c := by
  rw [refuses_operatorOf, split]
  cases op <;> cases other <;>
    first | exact absurd rfl differ | exact exactly_cons_ne (by decide) _ _

theorem reads_operator {op : BinOp} {c : Cursor} {ts : List Token}
    (stands : StandsAt (.operator op :: ts) c.rest) :
    ∃ c', operator.Reads c op c' ∧ Renders false ts c'.rest := by
  obtain ⟨s, split, rendered⟩ := stands
  let c' : Cursor := ⟨c.mark.advance op.symbol.toList, s⟩
  have itself (rule : Rule) : (operatorOf rule op).Reads c op c' :=
    reads_operatorOf.mpr ⟨rfl, Lexeme.exactly_eq_some_iff.mpr ⟨rfl, split⟩, rfl⟩
  refine ⟨c', ?_, rendered⟩
  have others {other : BinOp} (differ : other ≠ op) (rule : Rule) :
      (operatorOf rule other).Refuses c := refuses_otherOperator differ split
  simp only [operator, reads_orElse]
  cases op <;> simp [itself, others]

theorem refuses_operator {c : Cursor} {d : Char} {s : List Char} (ahead : c.rest = d :: s)
    (other : ∀ op : BinOp, op.symbol.toList.head? ≠ some d) : operator.Refuses c := by
  have each (rule : Rule) (op : BinOp) : (operatorOf rule op).Refuses c := by
    rw [refuses_operatorOf, ahead]
    have differ := other op
    cases op <;> exact exactly_cons_ne (fun same => differ (by rw [← same]; rfl)) _ _
  simp only [operator, refuses_orElse, each, and_self]

/-- The recognizer of a literal of one kind. -/
theorem reads_literal {rule : Rule} {kind : LiteralKind} {scan : Lexeme.Scan} {c c' : Cursor}
    {literal : Literal} :
    (Literal.mk kind <$> token rule scan).Reads c literal c' ↔
      literal.kind = kind ∧ scan c.rest = some (literal.text.toList, c'.rest) ∧
        c'.mark = c.mark.advance literal.text.toList := by
  rw [reads_map]
  constructor
  · rintro ⟨text, read, rfl⟩
    exact ⟨rfl, reads_token.mp read⟩
  · rintro ⟨rfl, found⟩
    exact ⟨literal.text, reads_token.mpr found, rfl⟩

theorem refuses_literal {rule : Rule} {kind : LiteralKind} {scan : Lexeme.Scan} {c : Cursor} :
    (Literal.mk kind <$> token rule scan).Refuses c ↔ scan c.rest = none := by
  rw [refuses_map, refuses_token]

def literalScan : LiteralKind → Lexeme.Scan
  | .float => Lexeme.float
  | .integer => Lexeme.integer
  | .text => Lexeme.text
  | .boolean => Lexeme.oneOf ["true", "false"]
  | .null => Lexeme.oneOf ["null"]

/-- Literals are read by the scan of their kind, unless the scan of an earlier kind accepts. -/
theorem reads_constant {c c' : Cursor} {e : Expr} :
    constant.Reads c e c' ↔ ∃ literal : Literal,
      e = .const literal (c.mark.spanTo c'.mark) ∧
      literalScan literal.kind c.rest = some (literal.text.toList, c'.rest) ∧
      c'.mark = c.mark.advance literal.text.toList ∧
      ∀ earlier ∈
          [LiteralKind.float, .integer, .text, .boolean, .null].takeWhile (· ≠ literal.kind),
        literalScan earlier c.rest = none := by
  simp only [constant, reads_bind, reads_spanned, reads_expecting, reads_pure, Prod.exists,
    reads_orElse, reads_literal, refuses_literal, Lexeme.word_eq_oneOf]
  constructor
  · rintro ⟨literal, span, c₁, ⟨read, rfl⟩, rfl, rfl⟩
    obtain ⟨kind, text⟩ := literal
    refine ⟨⟨kind, text⟩, rfl, ?_⟩
    rcases read with ⟨rfl, found⟩ | ⟨no₁, ⟨rfl, found⟩ | ⟨no₂, ⟨rfl, found⟩ | ⟨no₃, ⟨rfl, found⟩ |
      ⟨no₄, ⟨rfl, found⟩⟩⟩⟩⟩ <;> simp_all [literalScan]
  · rintro ⟨literal, rfl, found, marked, earlier⟩
    refine ⟨literal, _, c', ⟨?_, rfl⟩, rfl, rfl⟩
    obtain ⟨kind, text⟩ := literal
    cases kind <;> simp_all [literalScan]

theorem wordy_literals : Lexeme.Wordy ["true", "false"] ∧ Lexeme.Wordy ["null"] :=
  ⟨Lexeme.wordy_of_subset (by simp [Lexeme.keywords]), Lexeme.wordy_keyword (by decide)⟩

/-- What a scan for literals accepts is a literal of its kind. -/
theorem isLexical_of_scan {literal : Literal} {chars s : List Char}
    (found : literalScan literal.kind chars = some (literal.text.toList, s)) :
    literal.IsLexical ∧ chars = literal.text.toList ++ s := by
  obtain ⟨kind, text⟩ := literal
  cases kind with
  | integer =>
      obtain ⟨split, digits, _⟩ := Lexeme.digits_eq_some_iff.mp found
      exact ⟨digits, split⟩
  | float =>
      obtain ⟨⟨whole, fraction, isWhole, isFraction, same⟩, split, _⟩ :=
        Lexeme.float_eq_some_iff.mp found
      exact ⟨⟨whole, fraction, isWhole, isFraction, same⟩, split⟩
  | text =>
      obtain ⟨quoted, split⟩ := Lexeme.text_eq_some_iff.mp found
      exact ⟨quoted, split⟩
  | boolean =>
      obtain ⟨mem, split, _⟩ := (Lexeme.oneOf_eq_some_iff wordy_literals.1).mp found
      exact ⟨by simpa [Literal.IsLexical] using mem, split⟩
  | null =>
      obtain ⟨mem, split, _⟩ := (Lexeme.oneOf_eq_some_iff wordy_literals.2).mp found
      exact ⟨by simpa [Literal.IsLexical] using mem, split⟩

theorem covers_constant {c c' : Cursor} {e : Expr} (read : constant.Reads c e c') :
    ∃ literal span, e = .const literal span ∧ literal.IsLexical ∧
      Covers [.literal literal] c c' := by
  obtain ⟨literal, rfl, found, _⟩ := reads_constant.mp read
  obtain ⟨lexical, split⟩ := isLexical_of_scan found
  exact ⟨literal, _, rfl, lexical,
    .token split lexical.nonempty (fun impossible => by cases impossible)⟩

/-- What may stand behind a literal: nothing that continues a number or a word. -/
def EndsLiteral (s : List Char) : Prop :=
  Lexeme.continuesWord s = false ∧ s.head? ≠ some '.'

/-- Digits end where a literal ends. -/
theorem EndsLiteral.leavesDigits {s : List Char} (ends : EndsLiteral s) :
    Lexeme.Leaves Char.isDigit s := by
  intro d mem
  have notWord := Lexeme.continuesWord_eq_false_iff.mp ends.1 d mem
  cases digit : d.isDigit with
  | false => rfl
  | true =>
      rw [Lexeme.isWordChar_of_isDigit digit] at notWord
      cases notWord

/-- Digits are no floating-point number where a literal ends. -/
theorem float_of_digits {u s : List Char} (digits : IsDigits u) (ends : EndsLiteral s) :
    Lexeme.float (u ++ s) = none := by
  rw [Lexeme.float, Lexeme.digits_eq_some_iff.mpr ⟨rfl, digits, ends.leavesDigits⟩]
  cases s with
  | nil => rfl
  | cons d s =>
      have differ : '.' ≠ d := fun same => ends.2 (by rw [same]; rfl)
      simp [exactly_cons_ne differ]

/-- Numbers and quoted texts are refused where neither a digit nor a quotation mark stands. -/
theorem literalScan_eq_none {d : Char} (notDigit : d.isDigit = false) (notDouble : d ≠ '"')
    (notSingle : d ≠ '\'') (s : List Char) :
    ∀ kind ∈ [LiteralKind.float, .integer, .text], literalScan kind (d :: s) = none := by
  simp [literalScan, Lexeme.integer, Lexeme.float_eq_none notDigit,
    Lexeme.digits_eq_none notDigit, Lexeme.text_eq_none notDouble notSingle]

/-- A literal is accepted by the scan of its kind as a whole, and by no scan of an earlier kind. -/
theorem scan_of_isLexical {literal : Literal} (lexical : literal.IsLexical) {s : List Char}
    (ends : EndsLiteral s) :
    literalScan literal.kind (literal.text.toList ++ s) = some (literal.text.toList, s) ∧
    ∀ earlier ∈ [LiteralKind.float, .integer, .text, .boolean, .null].takeWhile (· ≠ literal.kind),
      literalScan earlier (literal.text.toList ++ s) = none := by
  obtain ⟨kind, text⟩ := literal
  cases kind with
  | integer =>
      refine ⟨Lexeme.digits_eq_some_iff.mpr ⟨rfl, lexical, ends.leavesDigits⟩, ?_⟩
      simpa [literalScan] using float_of_digits lexical ends
  | float => exact ⟨Lexeme.float_eq_some_iff.mpr ⟨lexical, rfl, ends.leavesDigits⟩, by simp⟩
  | text =>
      refine ⟨Lexeme.text_eq_some_iff.mpr ⟨lexical, rfl⟩, ?_⟩
      obtain ⟨quote, body, kind, _, same⟩ := lexical
      have notDigit : quote.isDigit = false := by rcases kind with rfl | rfl <;> decide
      simp only [same, List.cons_append]
      simp [literalScan, Lexeme.integer, Lexeme.float_eq_none notDigit,
        Lexeme.digits_eq_none notDigit]
  | boolean =>
      refine ⟨(Lexeme.oneOf_eq_some_iff wordy_literals.1).mpr ⟨?_, rfl, ends.1⟩, ?_⟩
      · simpa [Literal.IsLexical] using lexical
      · rcases lexical with rfl | rfl <;>
          exact literalScan_eq_none (by decide) (by decide) (by decide) _
  | null =>
      refine ⟨(Lexeme.oneOf_eq_some_iff wordy_literals.2).mpr ⟨?_, rfl, ends.1⟩, ?_⟩
      · simpa [Literal.IsLexical] using lexical
      · cases lexical
        have notBoolean : literalScan .boolean ("null".toList ++ s) = none :=
          Lexeme.oneOf_eq_none wordy_literals.1 (Lexeme.wordy_keywords "null" (by decide)) ends.1
            (by decide)
        have earlier := literalScan_eq_none (d := 'n') (by decide) (by decide) (by decide)
          ("ull".toList ++ s)
        intro kind mem
        have mem : kind ∈ [LiteralKind.float, .integer, .text] ++ [.boolean] := mem
        rcases List.mem_append.mp mem with mem | mem
        · exact earlier kind mem
        · rw [List.mem_singleton.mp mem]
          exact notBoolean

theorem reads_standing_literal {literal : Literal} (lexical : literal.IsLexical) {c : Cursor}
    {ts : List Token} (stands : StandsAt (.literal literal :: ts) c.rest)
    (ends : ∀ s, Renders false ts s → EndsLiteral s) :
    ∃ span c', constant.Reads c (.const literal span) c' ∧ Renders false ts c'.rest := by
  obtain ⟨s, split, rendered⟩ := stands
  obtain ⟨found, earlier⟩ := scan_of_isLexical lexical (ends s rendered)
  rw [← show c.rest = literal.text.toList ++ s from split] at found earlier
  exact ⟨_, ⟨c.mark.advance literal.text.toList, s⟩,
    reads_constant.mpr ⟨literal, rfl, found, rfl, earlier⟩, rendered⟩

/-- No literal is read at a run of word characters that is none and begins with no digit. -/
theorem refuses_constant {c : Cursor} {d : Char} {more u s : List Char}
    (ahead : c.rest = d :: more) (notDigit : d.isDigit = false) (notDouble : d ≠ '"')
    (notSingle : d ≠ '\'') (run : c.rest = u ++ s) (all : ∀ x ∈ u, Lexeme.isWordChar x = true)
    (ends : Lexeme.continuesWord s = false) (other : String.ofList u ∉ ["true", "false", "null"]) :
    constant.Refuses c := by
  have earlier := literalScan_eq_none notDigit notDouble notSingle more
  rw [← ahead] at earlier
  have notBoolean : literalScan .boolean c.rest = none := by
    rw [run]
    exact Lexeme.oneOf_eq_none wordy_literals.1 all ends fun mem => other (by simp_all)
  have notNull : literalScan .null c.rest = none := by
    rw [run]
    exact Lexeme.oneOf_eq_none wordy_literals.2 all ends fun mem => other (by simp_all)
  refine refuses_of_not_reads fun e c' read => ?_
  obtain ⟨⟨kind, text⟩, _, found, _⟩ := reads_constant.mp read
  cases kind with
  | boolean => rw [notBoolean] at found; cases found
  | null => rw [notNull] at found; cases found
  | _ =>
      rw [earlier _ (by simp)] at found
      cases found

end TinyScript.Grammar
