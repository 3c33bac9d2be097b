import TinyScript.Proofs.Lexing
import TinyScript.Proofs.Spelling

/-!
# Tokens of well-shaped trees

The tokens of a well-shaped tree have texts of their kinds.  None of these
texts is empty, and none begins like trivia.
-/

namespace TinyScript

def marks : List Char := ['(', ')', '\x7b', '\x7d', ',', ';', '=']

/-- Whether the text of a token is one of its kind. -/
def Token.Lexical : Token → Prop
  | .name n => IsName n
  | .literal l => l.IsLexical
  | .keyword w => w ∈ Lexeme.keywords
  | .operator _ => True
  | .mark x => x ∈ marks

/-- A token that begins with a word character cannot be skipped. -/
theorem solid_of_word {t : Token} {d : Char} {more : List Char} (spelled : t.text = d :: more)
    (word : Lexeme.isWordChar d = true) : t.Solid := by
  rw [Token.Solid, spelled]
  refine ⟨List.cons_ne_nil _ _, ?_⟩
  constructor
  · cases blank : Lexeme.isBlank d with
    | false => rfl
    | true => exact absurd word (by simp [not_wordChar_of_trivia (.inl blank)])
  · rintro rfl
    exact absurd word (by decide)

theorem IsDigits.first {text : List Char} (digits : IsDigits text) :
    ∃ d more, text = d :: more ∧ Lexeme.isWordChar d = true := by
  obtain ⟨nonempty, all⟩ := digits
  obtain ⟨d, more, rfl⟩ := List.exists_cons_of_ne_nil nonempty
  exact ⟨d, more, rfl, Lexeme.isWordChar_of_isDigit (all d List.mem_cons_self)⟩

theorem solid_literal {literal : Literal} (lexical : literal.IsLexical) :
    (Token.literal literal).Solid := by
  obtain ⟨kind, text⟩ := literal
  cases kind with
  | integer =>
      obtain ⟨d, more, spelled, word⟩ := IsDigits.first lexical
      exact solid_of_word spelled word
  | float =>
      obtain ⟨whole, fraction, isWhole, _, spelled⟩ := lexical
      obtain ⟨d, more, rfl, word⟩ := isWhole.first
      exact solid_of_word spelled word
  | text =>
      obtain ⟨quote, body, kind, _, spelled⟩ := lexical
      rw [Token.Solid, show (Token.literal ⟨.text, text⟩).text = _ from spelled]
      refine ⟨List.cons_ne_nil _ _, ?_⟩
      rcases kind with rfl | rfl <;> exact ⟨by decide, by decide⟩
  | boolean => rcases lexical with same | same <;> cases same <;> decide
  | null =>
      cases lexical
      decide

/-- A token of its kind is not empty and cannot be skipped. -/
theorem Token.Lexical.solid {t : Token} (lexical : t.Lexical) : t.Solid := by
  cases t with
  | name name =>
      obtain ⟨d, more, spelled, _⟩ := lexical.1
      refine solid_of_word spelled (Lexeme.wordChar_of_isName lexical d ?_)
      rw [spelled]
      exact List.mem_cons_self
  | literal literal => exact solid_literal lexical
  | keyword word =>
      change word ∈ ["if", "else", "while", "until", "true", "false", "null"] at lexical
      simp only [List.mem_cons, List.not_mem_nil, or_false] at lexical
      rcases lexical with rfl | rfl | rfl | rfl | rfl | rfl | rfl <;> decide
  | operator op => cases op <;> decide
  | mark x =>
      change x ∈ ['(', ')', '\x7b', '\x7d', ',', ';', '='] at lexical
      simp only [List.mem_cons, List.not_mem_nil, or_false] at lexical
      rcases lexical with rfl | rfl | rfl | rfl | rfl | rfl | rfl <;> decide

def AllLexical (ts : List Token) : Prop := ∀ t ∈ ts, t.Lexical

@[simp]
theorem allLexical_nil : AllLexical [] := List.forall_mem_nil _

@[simp]
theorem allLexical_cons {t : Token} {ts : List Token} :
    AllLexical (t :: ts) ↔ t.Lexical ∧ AllLexical ts := List.forall_mem_cons

@[simp]
theorem allLexical_append {ts us : List Token} :
    AllLexical (ts ++ us) ↔ AllLexical ts ∧ AllLexical us := List.forall_mem_append

@[simp]
theorem lexical_mark {x : Char} : (Token.mark x).Lexical ↔ x ∈ marks := Iff.rfl

theorem lexical_keyword {word : String} :
    (Token.keyword word).Lexical ↔ word ∈ Lexeme.keywords := Iff.rfl

@[simp]
theorem lexical_operator {op : BinOp} : (Token.operator op).Lexical ↔ True := Iff.rfl

mutual

theorem Expr.Shaped.allLexical : {e : Expr} → e.Shaped → AllLexical e.tokens
  | .const literal span, shaped => by
      rw [Expr.tokens]
      exact allLexical_cons.mpr ⟨shaped, allLexical_nil⟩
  | .ident name span, shaped => by
      rw [Expr.tokens]
      exact allLexical_cons.mpr ⟨shaped, allLexical_nil⟩
  | .call callee args span, shaped => by
      have lexicalArgs := lexical_argTokens shaped.2
      rw [Expr.tokens, allLexical_cons]
      exact ⟨shaped.1, by simp [lexicalArgs, marks]⟩
  | .additive left op right span, ⟨_, _, shapedLeft, shapedRight⟩ => by
      simp [Expr.tokens, shapedLeft.allLexical, shapedRight.allLexical]
  | .comparison left op right span, ⟨_, _, shapedLeft, shapedRight⟩ => by
      simp [Expr.tokens, shapedLeft.allLexical, shapedRight.allLexical]
  | .paren inner span, shaped => by
      have shapedInner : inner.Shaped := shaped
      simp [Expr.tokens, shapedInner.allLexical, marks]

theorem lexical_argTokens : {es : List Expr} → ShapedExprs es → AllLexical (argTokens es)
  | [], _ => allLexical_nil
  | e :: es, ⟨shaped, others⟩ => by
      simp [argTokens, shaped.allLexical, lexical_moreArgTokens others]

theorem lexical_moreArgTokens : {es : List Expr} → ShapedExprs es → AllLexical (moreArgTokens es)
  | [], _ => allLexical_nil
  | e :: es, ⟨shaped, others⟩ => by
      simp [moreArgTokens, shaped.allLexical, lexical_moreArgTokens others, marks]

end

mutual

theorem Stmt.Shaped.allLexical : {s : Stmt} → s.Shaped → AllLexical s.tokens
  | .assign target value span, ⟨isName, shaped⟩ => by
      rw [Stmt.tokens, allLexical_cons]
      exact ⟨isName, by simp [shaped.allLexical, marks]⟩
  | .call callee args span, ⟨isName, shaped⟩ => by
      rw [Stmt.tokens, allLexical_cons]
      exact ⟨isName, by simp [lexical_argTokens shaped, marks]⟩
  | .loop kind condition body otherwise span, ⟨guard, inside, other⟩ => by
      rw [Stmt.tokens, allLexical_cons]
      refine ⟨lexical_keyword.mpr ?_, ?_⟩
      · cases kind <;> decide
      · simp [guard.allLexical, inside.allLexical, other.allLexical]
  | .branch b, shaped => by
      have shapedBranch : b.Shaped := shaped
      rw [Stmt.tokens]
      exact shapedBranch.allLexical

theorem Block.Shaped.allLexical : {b : Block} → b.Shaped → AllLexical b.tokens
  | .mk stmts span, shaped => by
      have lexicalStmts := lexical_stmtTokens shaped
      simp [Block.tokens, lexicalStmts, marks]

theorem Branch.Shaped.allLexical : {b : Branch} → b.Shaped → AllLexical b.tokens
  | .mk condition body otherwise span, ⟨guard, inside, other⟩ => by
      rw [Branch.tokens, allLexical_cons]
      refine ⟨?_, by simp [guard.allLexical, inside.allLexical, other.allLexical]⟩
      exact lexical_keyword.mpr (by decide)

theorem Otherwise.Shaped.allLexical : {o : Otherwise} → o.Shaped → AllLexical o.tokens
  | .nothing, _ => allLexical_nil
  | .block body, shaped => by
      have shapedBody : body.Shaped := shaped
      rw [Otherwise.tokens, allLexical_cons]
      exact ⟨lexical_keyword.mpr (by decide), shapedBody.allLexical⟩
  | .branch b, shaped => by
      have shapedBranch : b.Shaped := shaped
      rw [Otherwise.tokens, allLexical_cons]
      exact ⟨lexical_keyword.mpr (by decide), shapedBranch.allLexical⟩

theorem lexical_stmtTokens : {ss : List Stmt} → ShapedStmts ss → AllLexical (stmtTokens ss)
  | [], _ => allLexical_nil
  | s :: ss, ⟨shaped, others⟩ => by
      simp [stmtTokens, shaped.allLexical, lexical_stmtTokens others]

end

end TinyScript
