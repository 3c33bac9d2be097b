import TinyScript.Proofs.Lexing
import TinyScript.Value.Literal
import TinyScript.Value.Operator

/-!
# Values of literals and results of operators

A literal whose text is one of its kind has a value, integers beyond 64 bits
apart.  An operator in a node of its kind fails only on account of its
operands.
-/

namespace TinyScript

theorem le_foldl_digits (digits : List Char) (value : Nat) :
    value ≤ digits.foldl (fun n c => 10 * n + Numeral.digitValue c) value := by
  induction digits generalizing value with
  | nil => exact Nat.le_refl value
  | cons c digits ih =>
      have further := ih (10 * value + Numeral.digitValue c)
      rw [List.foldl_cons]
      omega

/-- Digits are no malformed integer. -/
theorem integerFrom_digits {digits : List Char} (all : ∀ c ∈ digits, c.isDigit = true)
    (negative : Bool) (value : Int64) :
    Numeral.integerFrom negative value digits ≠ .error .malformed := by
  induction digits generalizing value with
  | nil => simp [Numeral.integerFrom]
  | cons c digits ih =>
      rw [List.forall_mem_cons] at all
      rw [Numeral.integerFrom, if_pos all.1]
      dsimp only
      split
      · exact ih all.2 _
      · simp

theorem not_sign_of_isDigit {c : Char} (digit : c.isDigit = true) : c ≠ '-' ∧ c ≠ '+' := by
  constructor
  · rintro rfl
    exact absurd digit (by decide)
  · rintro rfl
    exact absurd digit (by decide)

theorem integer_unsigned {text : List Char} (digits : IsDigits text) :
    Numeral.integer text = Numeral.integerFrom false 0 text := by
  obtain ⟨nonempty, all⟩ := digits
  obtain ⟨c, more, rfl⟩ := List.exists_cons_of_ne_nil nonempty
  obtain ⟨notMinus, notPlus⟩ := not_sign_of_isDigit (all c List.mem_cons_self)
  simp [Numeral.integer, notMinus, notPlus]

/-- Digits are read as an integer or are out of range. -/
theorem integer_of_isDigits {text : List Char} (digits : IsDigits text) :
    Numeral.integer text ≠ .error .malformed := by
  rw [integer_unsigned digits]
  exact integerFrom_digits digits.2 false 0

/-- Digits on both sides of a point are read as a floating-point number. -/
theorem float_of_isDigits {whole fraction : List Char} (isWhole : IsDigits whole)
    (isFraction : IsDigits fraction) :
    ∃ x, Numeral.float? (whole ++ '.' :: fraction) = some x := by
  obtain ⟨nonempty, all⟩ := isWhole
  obtain ⟨c, more, rfl⟩ := List.exists_cons_of_ne_nil nonempty
  obtain ⟨notMinus, notPlus⟩ := not_sign_of_isDigit (all c List.mem_cons_self)
  have unsigned : Numeral.signed (c :: more ++ '.' :: fraction) =
      (false, c :: more ++ '.' :: fraction) := by
    simp [Numeral.signed, notMinus, notPlus]
  have point : Lexeme.Leaves Char.isDigit ('.' :: fraction) := by
    intro d mem
    cases mem
    decide
  have wholeSpan := Lexeme.span_append all point
  have fractionSpan : fraction.span Char.isDigit = (fraction, []) := by
    have ending : Lexeme.Leaves Char.isDigit [] := fun d mem => by cases mem
    simpa using Lexeme.span_append isFraction.2 ending
  have found : ∃ x, Numeral.magnitude? (c :: more ++ '.' :: fraction) = some x := by
    unfold Numeral.magnitude?
    dsimp only
    split
    · exact ⟨_, rfl⟩
    · split
      · exact ⟨_, rfl⟩
      · rw [wholeSpan]
        simp only [fractionSpan]
        exact ⟨_, rfl⟩
  obtain ⟨x, found⟩ := found
  refine ⟨x, ?_⟩
  simp only [Numeral.float?, unsigned, found]
  rfl

/-- A text between quotation marks is what stands between them. -/
theorem unquoted_of_quoted {quote : Char} (kind : quote = '"' ∨ quote = '\'') (body : List Char) :
    unquoted? (quote :: (body ++ [quote])) = some body := by
  rw [unquoted?, if_pos ⟨kind, by simp⟩]
  simp

/-- What the text of a literal is read as: a value, or an integer that is out of range. -/
def Literal.Readable (literal : Literal) : Prop :=
  (∃ v, literal.value = .ok v) ∨
    literal.kind = .integer ∧ ∃ detail, literal.value = .error (.overflow detail)

/-- A literal of its kind has a value, unless it is an integer that is out of range. -/
theorem Literal.IsLexical.readable {literal : Literal} (lexical : literal.IsLexical) :
    literal.Readable := by
  obtain ⟨kind, text⟩ := literal
  cases kind with
  | integer =>
      have notMalformed := integer_of_isDigits lexical
      cases read : Numeral.integer text.toList with
      | ok n => exact .inl ⟨.integer n, by simp [Literal.value, read]⟩
      | error fault =>
          cases fault with
          | malformed => exact absurd read notMalformed
          | outOfRange =>
              refine .inr ⟨rfl, "integer literal " ++ text ++ " is out of range", ?_⟩
              simp only [Literal.value, read]
  | float =>
      obtain ⟨whole, fraction, isWhole, isFraction, spelled⟩ := lexical
      obtain ⟨x, read⟩ := float_of_isDigits isWhole isFraction
      rw [← spelled] at read
      exact .inl ⟨.float x, by simp only [Literal.value, read]⟩
  | text =>
      obtain ⟨quote, body, kind, _, spelled⟩ := lexical
      have read := unquoted_of_quoted kind body
      rw [← spelled] at read
      exact .inl ⟨.text (String.ofList body), by simp only [Literal.value, read]⟩
  | boolean =>
      rcases lexical with same | same
      · exact .inl ⟨.boolean true, by simp_all [Literal.value]⟩
      · exact .inl ⟨.boolean false, by simp_all [Literal.value]⟩
  | null => exact .inl ⟨.null, rfl⟩

/-- Where an arithmetic operator fails, its operands are to blame. -/
theorem arithmetic_error {op : BinOp} (isArithmetic : op.isArithmetic = true) {left right : Value}
    {e : EvalError} (failed : op.arithmetic left right = .error e) :
    e.kind = .overflow ∨ e.kind = .typeMismatch := by
  obtain ⟨functions, found⟩ : ∃ functions, op.functions? = some functions := by
    cases op <;> first | exact ⟨_, rfl⟩ | cases isArithmetic
  unfold BinOp.arithmetic at failed
  rw [found] at failed
  dsimp only at failed
  split at failed
  · split at failed
    · cases failed
    · cases failed
      exact .inl rfl
  · cases failed
  · cases failed
  · cases failed
  · split at failed
    · cases failed
    · cases failed
      exact .inr rfl

/-- Where a comparison fails, its operands are to blame. -/
theorem comparison_error {op : BinOp} (isComparison : op.isArithmetic = false)
    {left right : Value} {e : EvalError} (failed : op.comparison left right = .error e) :
    e.kind = .typeMismatch := by
  have ordered {op : BinOp} {wanted : Ordering} (failed : op.ordered wanted left right = .error e) :
      e.kind = .typeMismatch := by
    unfold BinOp.ordered at failed
    split at failed
    · cases failed
    · cases failed
      rfl
  cases op with
  | add => cases isComparison
  | sub => cases isComparison
  | mul => cases isComparison
  | eq => cases failed
  | notEq => cases failed
  | greater => exact ordered failed
  | less => exact ordered failed

end TinyScript
