import TinyScript.Proofs.LexicalTokens
import TinyScript.Proofs.Offsets

/-!
# Counting brackets

The count of brackets in front of reading goes over characters.  On a text
that renders the tokens of a tree it finds no bracket too deep exactly if the
tree nests no more brackets than allowed.
-/

namespace TinyScript.Nesting

/-- The count goes over these characters of code without a change. -/
def Passes (u : List Char) : Prop :=
  ∀ depth mark s,
    tooDeepFrom? .code depth mark (u ++ s) = tooDeepFrom? .code depth (mark.advance u) s

theorem passes_nil : Passes [] := fun _ _ _ => rfl

theorem Passes.append {u v : List Char} (first : Passes u) (second : Passes v) :
    Passes (u ++ v) := by
  intro depth mark s
  rw [List.append_assoc, first, second, Mark.advance_append]

def special : List Char := ['"', '\'', '/', '(', ')', '\x7b', '\x7d']

/-- The count passes over a character at which it does nothing. -/
theorem passes_char {c : Char} (plain : c ∉ special) : Passes [c] := by
  intro depth mark s
  simp only [special, List.mem_cons, List.not_mem_nil, or_false, not_or] at plain
  simp [tooDeepFrom?, plain, Mark.advance]

theorem passes_plain {u : List Char} (plain : ∀ c ∈ u, c ∉ special) : Passes u := by
  induction u with
  | nil => exact passes_nil
  | cons c u ih =>
      rw [List.forall_mem_cons] at plain
      exact (passes_char plain.1).append (ih plain.2)

theorem plain_of_isBlank {c : Char} (blank : Lexeme.isBlank c = true) : c ∉ special := by
  simp only [Lexeme.isBlank, Bool.or_eq_true, beq_iff_eq] at blank
  rcases blank with ((rfl | rfl) | rfl) | rfl <;> decide

theorem plain_of_isWordChar {c : Char} (word : Lexeme.isWordChar c = true) : c ∉ special := by
  intro mem
  have none : special.all (fun x => !Lexeme.isWordChar x) = true := by decide
  have other := List.all_eq_true.mp none c mem
  simp [word] at other

theorem passes_word {u : List Char} (word : ∀ c ∈ u, Lexeme.isWordChar c = true) : Passes u :=
  passes_plain fun c mem => plain_of_isWordChar (word c mem)

/-- Inside of a comment everything up to the newline is passed over. -/
theorem scan_comment {body : List Char} (oneLine : '\n' ∉ body) (depth : Nat) (mark : Mark)
    (s : List Char) :
    tooDeepFrom? .comment depth mark (body ++ '\n' :: s) =
      tooDeepFrom? .code depth (mark.advance (body ++ ['\n'])) s := by
  induction body generalizing mark with
  | nil => simp [tooDeepFrom?, Mark.advance]
  | cons c body ih =>
      rw [List.mem_cons, not_or] at oneLine
      rw [List.cons_append, tooDeepFrom?, if_neg (Ne.symm oneLine.1), ih oneLine.2]
      rfl

/-- A comment without a newline holds no bracket. -/
theorem scan_lastComment {body : List Char} (oneLine : '\n' ∉ body) (depth : Nat) (mark : Mark) :
    tooDeepFrom? .comment depth mark body = none := by
  induction body generalizing mark with
  | nil => rfl
  | cons c body ih =>
      rw [List.mem_cons, not_or] at oneLine
      rw [tooDeepFrom?, if_neg (Ne.symm oneLine.1)]
      exact ih oneLine.2 (mark.step c)

/-- Inside of a quoted text everything up to the quotation mark is passed over. -/
theorem scan_quoted {quote : Char} {body : List Char} (inside : quote ∉ body) (depth : Nat)
    (mark : Mark) (s : List Char) :
    tooDeepFrom? (.quoted quote) depth mark (body ++ quote :: s) =
      tooDeepFrom? .code depth (mark.advance (body ++ [quote])) s := by
  induction body generalizing mark with
  | nil => simp [tooDeepFrom?, Mark.advance]
  | cons c body ih =>
      rw [List.mem_cons, not_or] at inside
      rw [List.cons_append, tooDeepFrom?, if_neg (Ne.symm inside.1), ih inside.2]
      rfl

theorem scan_slashes (depth : Nat) (mark : Mark) (s : List Char) :
    tooDeepFrom? .code depth mark ('/' :: '/' :: s) =
      tooDeepFrom? .comment depth (mark.step '/') ('/' :: s) := by
  simp [tooDeepFrom?]

/-- Trivia are passed over; those cut short by the end of the text hold no bracket. -/
theorem scan_trivia {atEnd : Bool} {w s : List Char} (trivia : Trivia atEnd w)
    (last : atEnd = true → s = []) (depth : Nat) (mark : Mark) :
    tooDeepFrom? .code depth mark (w ++ s) = tooDeepFrom? .code depth (mark.advance w) s := by
  induction trivia generalizing mark with
  | nil => rfl
  | @blank atEnd c w isBlank others ih =>
      have first := passes_char (plain_of_isBlank isBlank) depth mark (w ++ s)
      exact first.trans (ih last (mark.step c))
  | @comment atEnd body w oneLine others ih =>
      have slash : '\n' ∉ '/' :: body := by simp [oneLine]
      have first := scan_comment slash depth (mark.step '/') (w ++ s)
      have whole : mark.advance ('/' :: '/' :: (body ++ '\n' :: w)) =
          ((mark.step '/').advance ('/' :: body ++ ['\n'])).advance w := by
        rw [← Mark.advance_append, ← Mark.advance_cons]
        simp
      rw [List.cons_append, List.cons_append, List.append_assoc, scan_slashes, whole]
      exact first.trans (ih last _)
  | @lastComment body oneLine =>
      have slash : '\n' ∉ '/' :: body := by simp [oneLine]
      rw [last rfl, List.append_nil, scan_slashes, scan_lastComment slash]
      rfl

def opens (t : Token) : Bool := t = .mark '(' || t = .mark '\x7b'

def closes (t : Token) : Bool := t = .mark ')' || t = .mark '\x7d'

theorem passes_literal {literal : Literal} (lexical : literal.IsLexical) :
    Passes literal.text.toList := by
  have digits {u : List Char} (isDigits : IsDigits u) : Passes u := passes_word fun c mem =>
    Lexeme.isWordChar_of_isDigit (isDigits.2 c mem)
  obtain ⟨kind, text⟩ := literal
  cases kind with
  | integer => exact digits lexical
  | float =>
      obtain ⟨whole, fraction, isWhole, isFraction, spelled⟩ := lexical
      rw [spelled]
      exact (digits isWhole).append ((passes_char (by decide)).append (digits isFraction))
  | text =>
      obtain ⟨quote, body, kind, inside, spelled⟩ := lexical
      rw [spelled]
      intro depth mark s
      rw [List.cons_append, List.append_assoc, tooDeepFrom?, if_pos kind]
      exact scan_quoted inside depth (mark.step quote) s
  | boolean =>
      rcases lexical with same | same <;> cases same <;>
        exact passes_word (Lexeme.wordy_keywords _ (by decide))
  | null =>
      cases lexical
      exact passes_word (Lexeme.wordy_keywords _ (by decide))

/-- Tokens that are no brackets are passed over. -/
theorem passes_token {t : Token} (lexical : t.Lexical) (notOpen : opens t = false)
    (notClose : closes t = false) : Passes t.text := by
  cases t with
  | name name => exact passes_word (Lexeme.wordChar_of_isName lexical)
  | literal literal => exact passes_literal lexical
  | keyword word => exact passes_word (Lexeme.wordy_keywords word lexical)
  | operator op =>
      have plain : op.symbol.toList.all (fun c => c ∉ special) = true := by
        cases op <;> decide
      exact passes_plain fun c mem => of_decide_eq_true (List.all_eq_true.mp plain c mem)
  | mark x =>
      simp only [lexical_mark, marks, List.mem_cons, List.not_mem_nil, or_false] at lexical
      rcases lexical with rfl | rfl | rfl | rfl | rfl | rfl | rfl
      · cases notOpen
      · cases notClose
      · cases notOpen
      · cases notClose
      all_goals exact passes_char (by decide)

/-- Nowhere in the tokens are too many brackets open, if `depth` are open in front of them. -/
def Shallow : (depth : Nat) → List Token → Prop
  | _, [] => True
  | depth, t :: ts =>
      if opens t then depth + 1 ≤ maxOpen ∧ Shallow (depth + 1) ts
      else if closes t then Shallow (depth - 1) ts
      else Shallow depth ts

/-- At an opening bracket the count stops if too many are open. -/
theorem scan_opening {x : Char} (bracket : x = '(' ∨ x = '\x7b') (depth : Nat) (mark : Mark)
    (s : List Char) :
    tooDeepFrom? .code depth mark (x :: s) =
      if maxOpen < depth + 1 then some mark
      else tooDeepFrom? .code (depth + 1) (mark.step x) s := by
  rcases bracket with rfl | rfl <;> simp [tooDeepFrom?]

/-- The count goes on behind an opening bracket if there is room for it. -/
theorem scan_opening_eq_none_iff {x : Char} (bracket : x = '(' ∨ x = '\x7b') (depth : Nat)
    (mark : Mark) (s : List Char) :
    tooDeepFrom? .code depth mark (x :: s) = none ↔
      depth + 1 ≤ maxOpen ∧ tooDeepFrom? .code (depth + 1) (mark.step x) s = none := by
  rw [scan_opening bracket]
  by_cases full : maxOpen < depth + 1
  · rw [if_pos full]
    exact iff_of_false (by simp) fun both => absurd both.1 (Nat.not_le.mpr full)
  · rw [if_neg full, and_iff_right (Nat.not_lt.mp full)]

theorem scan_closing {x : Char} (bracket : x = ')' ∨ x = '\x7d') (depth : Nat) (mark : Mark)
    (s : List Char) :
    tooDeepFrom? .code depth mark (x :: s) = tooDeepFrom? .code (depth - 1) (mark.step x) s := by
  rcases bracket with rfl | rfl <;> simp [tooDeepFrom?]

/-- The count finds no bracket too deep if there is none among the tokens rendered. -/
theorem scan_eq_none_iff {afterKeyword : Bool} {ts : List Token} {s : List Char}
    (rendered : Renders afterKeyword ts s) (lexical : AllLexical ts) (depth : Nat) (mark : Mark) :
    tooDeepFrom? .code depth mark s = none ↔ Shallow depth ts := by
  induction rendered generalizing depth mark with
  | @ending _ w gap =>
      rw [← List.append_nil w, scan_trivia gap (fun _ => rfl)]
      exact iff_of_true rfl trivial
  | @token _ t ts w s gap apart rest ih =>
      rw [allLexical_cons] at lexical
      have complete : false = true → t.text ++ s = [] := fun impossible => by cases impossible
      rw [scan_trivia gap complete, Shallow]
      generalize mark.advance w = mark'
      split
      · next isOpen =>
          obtain ⟨x, rfl, bracket⟩ : ∃ x, t = .mark x ∧ (x = '(' ∨ x = '\x7b') := by
            rcases (by simpa [opens] using isOpen : t = .mark '(' ∨ t = .mark '\x7b') with rfl | rfl
            · exact ⟨'(', rfl, .inl rfl⟩
            · exact ⟨'\x7b', rfl, .inr rfl⟩
          rw [← ih lexical.2 (depth + 1) (mark'.step x)]
          exact scan_opening_eq_none_iff bracket depth mark' s
      · next notOpen =>
          split
          · next isClose =>
              obtain ⟨x, rfl, bracket⟩ : ∃ x, t = .mark x ∧ (x = ')' ∨ x = '\x7d') := by
                rcases (by simpa [closes] using isClose : t = .mark ')' ∨ t = .mark '\x7d')
                  with rfl | rfl
                · exact ⟨')', rfl, .inl rfl⟩
                · exact ⟨'\x7d', rfl, .inr rfl⟩
              rw [← ih lexical.2 (depth - 1) (mark'.step x), Token.text, List.singleton_append,
                scan_closing bracket]
          · next notClose =>
              have passes := passes_token lexical.1 (by simpa using notOpen)
                (by simpa using notClose)
              rw [passes depth mark' s]
              exact ih lexical.2 depth (mark'.advance t.text)

/-- The tokens nest at most `most` brackets, and close all that they open. -/
def Nests (ts : List Token) (most : Nat) : Prop :=
  ∀ ⦃depth : Nat⦄ (us : List Token), depth ≤ maxOpen →
    (Shallow depth (ts ++ us) ↔ depth + most ≤ maxOpen ∧ Shallow depth us)

theorem nests_nil : Nests [] 0 := fun _ _ low => (and_iff_right low).symm

theorem Nests.append {ts us : List Token} {m n : Nat} (first : Nests ts m) (second : Nests us n) :
    Nests (ts ++ us) (max m n) := by
  intro depth vs low
  rw [List.append_assoc, first _ low, second _ low, ← and_assoc]
  have both : depth + m ≤ maxOpen ∧ depth + n ≤ maxOpen ↔ depth + max m n ≤ maxOpen := by omega
  rw [both]

/-- A token that is no bracket does not count. -/
theorem Nests.cons {t : Token} {ts : List Token} {n : Nat} (others : Nests ts n)
    (notOpen : opens t = false) (notClose : closes t = false) : Nests (t :: ts) n := by
  intro depth us low
  rw [List.cons_append, Shallow, if_neg (by simp [notOpen]), if_neg (by simp [notClose])]
  exact others us low

/-- A pair of brackets counts for one. -/
theorem Nests.bracketed {t t' : Token} {ts : List Token} {n : Nat} (inside : Nests ts n)
    (isOpen : opens t = true) (isClose : closes t' = true ∧ opens t' = false) :
    Nests (t :: (ts ++ [t'])) (n + 1) := by
  intro depth us low
  rw [List.cons_append, Shallow, if_pos isOpen, List.append_assoc]
  by_cases room : depth + 1 ≤ maxOpen
  · rw [inside _ room, List.singleton_append, Shallow, if_neg (by simp [isClose.2]),
      if_pos isClose.1, Nat.add_sub_cancel]
    have order : depth + 1 + n = depth + (n + 1) := by omega
    rw [and_iff_right room, order]
  · refine iff_of_false (fun both => room both.1) fun both => room ?_
    omega

mutual

theorem nests_expr : (e : Expr) → Nests e.tokens e.brackets
  | .const literal span => by
      rw [Expr.tokens, Expr.brackets]
      exact nests_nil.cons rfl rfl
  | .ident name span => by
      rw [Expr.tokens, Expr.brackets]
      exact nests_nil.cons rfl rfl
  | .call callee args span => by
      rw [Expr.tokens, Expr.brackets]
      exact ((nests_args args).bracketed rfl ⟨rfl, rfl⟩).cons rfl rfl
  | .additive left op right span => by
      rw [Expr.tokens, Expr.brackets]
      exact (nests_expr left).append ((nests_expr right).cons rfl rfl)
  | .comparison left op right span => by
      rw [Expr.tokens, Expr.brackets]
      exact (nests_expr left).append ((nests_expr right).cons rfl rfl)
  | .paren inner span => by
      rw [Expr.tokens, Expr.brackets]
      exact (nests_expr inner).bracketed rfl ⟨rfl, rfl⟩

theorem nests_args : (es : List Expr) → Nests (argTokens es) (mostBrackets es)
  | [] => nests_nil
  | e :: es => by
      rw [argTokens, mostBrackets]
      exact (nests_expr e).append (nests_moreArgs es)

theorem nests_moreArgs : (es : List Expr) → Nests (moreArgTokens es) (mostBrackets es)
  | [] => nests_nil
  | e :: es => by
      rw [moreArgTokens, mostBrackets]
      exact ((nests_expr e).append (nests_moreArgs es)).cons rfl rfl

end

mutual

theorem nests_stmt : (s : Stmt) → Nests s.tokens s.brackets
  | .assign target value span => by
      have whole := (nests_expr value).append (nests_nil.cons (t := .mark ';') rfl rfl)
      rw [Nat.max_zero] at whole
      rw [Stmt.tokens, Stmt.brackets]
      exact (whole.cons rfl rfl).cons rfl rfl
  | .call callee args span => by
      have call : Nests (.mark '(' :: (argTokens args ++ [.mark ')'])) (mostBrackets args + 1) :=
        (nests_args args).bracketed rfl ⟨rfl, rfl⟩
      have whole := call.append (nests_nil.cons (t := .mark ';') rfl rfl)
      rw [Nat.max_zero, List.cons_append, List.append_assoc] at whole
      rw [Stmt.tokens, Stmt.brackets]
      exact whole.cons rfl rfl
  | .loop kind condition body otherwise span => by
      rw [Stmt.tokens, Stmt.brackets]
      exact ((nests_expr condition).append
        ((nests_block body).append (nests_otherwise otherwise))).cons rfl rfl
  | .branch b => by
      rw [Stmt.tokens, Stmt.brackets]
      exact nests_branch b

theorem nests_block : (b : Block) → Nests b.tokens b.brackets
  | .mk stmts span => by
      rw [Block.tokens, Block.brackets]
      exact (nests_stmts stmts).bracketed rfl ⟨rfl, rfl⟩

theorem nests_branch : (b : Branch) → Nests b.tokens b.brackets
  | .mk condition body otherwise span => by
      rw [Branch.tokens, Branch.brackets]
      exact ((nests_expr condition).append
        ((nests_block body).append (nests_otherwise otherwise))).cons rfl rfl

theorem nests_otherwise : (o : Otherwise) → Nests o.tokens o.brackets
  | .nothing => nests_nil
  | .block body => by
      rw [Otherwise.tokens, Otherwise.brackets]
      exact (nests_block body).cons rfl rfl
  | .branch b => by
      rw [Otherwise.tokens, Otherwise.brackets]
      exact (nests_branch b).cons rfl rfl

theorem nests_stmts : (ss : List Stmt) → Nests (stmtTokens ss) (mostBracketsOf ss)
  | [] => nests_nil
  | s :: ss => by
      rw [stmtTokens, mostBracketsOf]
      exact (nests_stmt s).append (nests_stmts ss)

end

/-- The count accepts a rendering exactly if the program nests no more brackets than allowed. -/
theorem tooDeep_eq_none_iff {program : Program} {text : String}
    (shaped : ShapedStmts program.stmts) (rendered : program.RenderedBy text) :
    tooDeep? text.toList = none ↔ mostBracketsOf program.stmts ≤ maxOpen := by
  have counted := scan_eq_none_iff rendered (lexical_stmtTokens shaped) 0 .origin
  have nested := nests_stmts program.stmts [] (Nat.zero_le maxOpen)
  rw [tooDeep?, counted, Program.tokens, ← List.append_nil (stmtTokens program.stmts), nested,
    Nat.zero_add]
  exact and_iff_left trivial

end TinyScript.Nesting
