import TinyScript.Proofs.Grouping
import TinyScript.Proofs.Productions
import TinyScript.Proofs.Restoring

/-!
# Reading expressions back

The rules for expressions read well-shaped expressions back from their tokens,
their bound being at least the number of tokens.  What follows decides where
an operand and an expression end.
-/

namespace TinyScript

theorem Expr.tokens_ne_nil (e : Expr) : e.tokens ≠ [] := by
  cases e <;> simp [Expr.tokens]

theorem Stmt.tokens_ne_nil (s : Stmt) : s.tokens ≠ [] := by
  cases s with
  | branch b =>
      cases b
      simp [Stmt.tokens, Branch.tokens]
  | _ => simp [Stmt.tokens]

section

variable {β : Type} (tokens : β → List Token)

theorem length_le_of_mem {bs : List β} {b : β} (mem : b ∈ bs) :
    (tokens b).length ≤ (bs.flatMap tokens).length := by
  induction mem with
  | head bs =>
      rw [List.flatMap_cons, List.length_append]
      omega
  | tail b' mem ih =>
      rw [List.flatMap_cons, List.length_append]
      omega

theorem length_le_flatMap (nonempty : ∀ b, tokens b ≠ []) (bs : List β) :
    bs.length ≤ (bs.flatMap tokens).length := by
  induction bs with
  | nil => exact Nat.zero_le _
  | cons b bs ih =>
      have positive := List.length_pos_iff.mpr (nonempty b)
      rw [List.flatMap_cons, List.length_append, List.length_cons]
      omega

end

namespace Grammar

open Recognizer

def closing : List Char := [')', ',', ';', '\x7b']

def Closed (ts : List Token) : Prop := ∃ x us, ts = .mark x :: us ∧ x ∈ closing

/-- An operand ends in front of a closing mark or of an operator. -/
def Delimited (ts : List Token) : Prop :=
  Closed ts ∨ ∃ op us, ts = .operator op :: us

/-- What a delimiting token begins with continues nothing. -/
theorem Delimited.cons {ts : List Token} (delimited : Delimited ts) :
    ∃ t us, ts = t :: us ∧ t.text ≠ [] ∧ t.startsWord = false ∧ t.text.head? ≠ some '.' ∧
      t.text.head? ≠ some '(' := by
  rcases delimited with ⟨x, us, rfl, mem⟩ | ⟨op, us, rfl⟩
  · refine ⟨_, us, rfl, ?_⟩
    simp only [closing, List.mem_cons, List.not_mem_nil, or_false] at mem
    rcases mem with rfl | rfl | rfl | rfl <;> decide
  · refine ⟨_, us, rfl, ?_⟩
    cases op <;> decide

/-- Literals end where an operand ends. -/
theorem Delimited.endsLiteral {ts : List Token} (delimited : Delimited ts) {s : List Char}
    (rendered : Renders false ts s) : EndsLiteral s := by
  obtain ⟨t, us, rfl, nonempty, apart, notPoint, _⟩ := delimited.cons
  refine ⟨rendered.leavesWord nonempty (.inr apart), ?_⟩
  obtain ⟨d, more, rfl, first⟩ := rendered.first nonempty
  rw [List.head?_cons, ne_eq, Option.some.injEq]
  rintro rfl
  rcases first with blank | slash | ⟨head, _⟩
  · exact absurd blank (by decide)
  · exact absurd slash (by decide)
  · exact notPoint head

theorem refuses_closed {p : Recognizer Expr} {bound : Nat} {c : Cursor} {ts : List Token}
    (closed : Closed ts) (stands : Stands ts c) : (link p bound).Refuses c := by
  obtain ⟨x, us, rfl, mem⟩ := closed
  obtain ⟨d, s, split, same⟩ := stands.head
  cases same
  have refused : operator.Refuses c := by
    refine refuses_operator split fun op => ?_
    simp only [closing, List.mem_cons, List.not_mem_nil, or_false] at mem
    rcases mem with rfl | rfl | rfl | rfl <;> cases op <;> decide
  refine refuses_of_not_reads fun a c' read => ?_
  obtain ⟨c₁, read, _⟩ := reads_link.mp read
  exact refused.not_reads read

/-- The well-shaped expressions of at most `size` tokens are read back. -/
def RestoresExprs (p : Recognizer Expr) (size : Nat) : Prop :=
  ∀ e : Expr, e.Shaped → e.tokens.length ≤ size → Restores p Expr.erase e.tokens e.erase Closed

def Bracketed (ts : List Token) : Prop := ∃ us, ts = .mark ')' :: us

theorem Bracketed.closed {ts : List Token} (bracketed : Bracketed ts) : Closed ts := by
  obtain ⟨us, rfl⟩ := bracketed
  exact ⟨')', us, rfl, by decide⟩

/-- Neither a literal nor a name is read in front of a round bracket. -/
theorem refuses_at_bracket {x : Char} (bracket : x = '(' ∨ x = ')') {ts : List Token} {c : Cursor}
    (stands : Stands (.mark x :: ts) c) : constant.Refuses c ∧ identifier.Refuses c := by
  obtain ⟨d, s, split, same⟩ := stands.head
  cases same
  have faces : c.Faces "" := stands.faces_mark (by rcases bracket with rfl | rfl <;> decide)
  constructor
  · refine refuses_no_literal faces (by decide) split ?_ ?_ ?_ <;>
      rcases bracket with rfl | rfl <;> decide
  · exact refuses_no_name faces (not_isName (.inl rfl))

section

variable {p : Recognizer Expr} {bound : Nat}

/-- No call is read where no name is. -/
theorem refuses_call_of_identifier {c : Cursor} (refused : identifier.Refuses c) :
    (call p bound).Refuses c := by
  refine refuses_of_not_reads fun a c' read => ?_
  obtain ⟨callee, args, span⟩ := a
  obtain ⟨c₁, c₂, c₃, name, _⟩ := reads_call.mp read
  exact refused.not_reads name

/-- No call is read where a name is followed by something else than a bracket. -/
theorem refuses_call_of_mark {c c₁ : Cursor} {ident : Ident} (name : identifier.Reads c ident c₁)
    (refused : (symbol ['(']).Refuses c₁.skip) : (call p bound).Refuses c := by
  refine refuses_of_not_reads fun a c' read => ?_
  obtain ⟨callee, args, span⟩ := a
  obtain ⟨c₂, c₃, c₄, name', opened, _⟩ := reads_call.mp read
  obtain ⟨rfl, rfl⟩ := name.unique name'
  exact refused.not_reads opened

theorem refuses_callOperand {c : Cursor} (refused : (call p bound).Refuses c) :
    (callOperand p bound).Refuses c := by
  refine refuses_of_not_reads fun e c' read => ?_
  obtain ⟨callee, args, span, _, called⟩ := reads_callOperand.mp read
  exact refused.not_reads called

theorem refuses_nameOperand {c : Cursor} (refused : identifier.Refuses c) :
    nameOperand.Refuses c := by
  refine refuses_of_not_reads fun e c' read => ?_
  obtain ⟨ident, _, named⟩ := reads_nameOperand.mp read
  exact refused.not_reads named

/-- No expression is read in front of a closing bracket. -/
theorem refuses_expression (bound : Nat) {ts : List Token} {c : Cursor} (bracketed : Bracketed ts)
    (stands : Stands ts c) : (expression bound).Refuses c := by
  obtain ⟨us, rfl⟩ := bracketed
  obtain ⟨noConstant, noName⟩ := refuses_at_bracket (.inr rfl) stands
  refine refuses_of_not_reads fun e c' read => ?_
  cases bound with
  | zero => exact not_reads_refuse read
  | succ bound =>
      obtain ⟨first, links, c₁, _, read, _⟩ := reads_expression.mp read
      rcases reads_term.mp read with read | ⟨_, read | ⟨_, read | ⟨_, read⟩⟩⟩
      · exact noConstant.not_reads read
      · exact (refuses_callOperand (refuses_call_of_identifier noName)).not_reads read
      · exact (refuses_nameOperand noName).not_reads read
      · obtain ⟨inner, c₂, c₃, _, opened, _⟩ := reads_paren.mp read
        exact (refuses_other_mark stands (by decide)).not_reads opened

theorem restores_furtherArgument {e : Expr}
    (restores : Restores p Expr.erase e.tokens e.erase Closed) :
    Restores (furtherArgument p) Expr.erase (.mark ',' :: e.tokens) e.erase Closed := by
  intro c ts closed stands
  obtain ⟨c₁, comma, ahead⟩ := Stands.mark stands
  obtain ⟨a, c', read, same, ahead'⟩ := restores closed ahead.skip
  exact ⟨a, c', reads_furtherArgument.mpr ⟨c₁, comma, read⟩, same, ahead'⟩

/-- Arguments behind the first are read up to the closing bracket. -/
theorem restores_furtherArguments (restores : RestoresExprs p bound) {args : List Expr}
    (shaped : ∀ e ∈ args, e.Shaped) (enough : (moreArgTokens args).length ≤ bound) :
    Restores (many bound (furtherArgument p)) (List.map Expr.erase) (moreArgTokens args)
      (args.map Expr.erase) Bracketed := by
  rw [moreArgTokens_eq] at enough ⊢
  have each : ∀ e ∈ args, Restores (furtherArgument p) Expr.erase (.mark ',' :: e.tokens) e.erase
      Closed := by
    intro e mem
    have size := length_le_of_mem (fun e => .mark ',' :: e.tokens) mem
    rw [List.length_cons] at size
    exact restores_furtherArgument (restores e (shaped e mem) (by omega))
  refine restores_many each ?_ (fun ts => Bracketed.closed) ?_ ?_
  · intro e _ us
    exact ⟨',', e.tokens ++ us, rfl, by decide⟩
  · rintro c _ ⟨us, rfl⟩ stands
    refine refuses_of_not_reads fun a c' read => ?_
    obtain ⟨c₁, comma, _⟩ := reads_furtherArgument.mp read
    exact (refuses_other_mark stands (by decide)).not_reads comma
  · exact Nat.le_trans (length_le_flatMap _ (fun e => List.cons_ne_nil _ _) args) enough

/-- Arguments are read up to the closing bracket; there may be none. -/
theorem restores_arguments (restores : RestoresExprs p bound)
    (stop : ∀ ⦃ts c⦄, Bracketed ts → Stands ts c → p.Refuses c) {args : List Expr}
    (shaped : ShapedExprs args) (enough : (argTokens args).length ≤ bound) :
    Restores (withDefault [] (arguments p bound)) eraseExprs (argTokens args) (eraseExprs args)
      Bracketed := by
  intro c ts bracketed stands
  cases args with
  | nil =>
      have refused : (arguments p bound).Refuses c := by
        refine refuses_of_not_reads fun args c' read => ?_
        obtain ⟨first, others, c₁, _, read, _⟩ := reads_arguments.mp read
        exact (stop bracketed stands).not_reads read
      exact ⟨[], c, reads_withDefault.mpr (.inr ⟨refused, rfl, rfl⟩), rfl, stands.ahead⟩
  | cons e es =>
      rw [argTokens, List.length_append] at enough
      rw [argTokens, List.append_assoc] at stands
      have closed : Closed (moreArgTokens es ++ ts) := by
        cases es with
        | nil => exact bracketed.closed
        | cons e' es => exact ⟨',', (e'.tokens ++ moreArgTokens es) ++ ts, rfl, by decide⟩
      obtain ⟨a, c₁, read, same, ahead⟩ := restores e shaped.1 (by omega) closed stands
      obtain ⟨as, c', more, sameOthers, ahead'⟩ := restores_furtherArguments restores
        ((shapedExprs_iff es).mp shaped.2) (by omega) bracketed ahead.skip
      refine ⟨a :: as, c', reads_withDefault.mpr (.inl ?_), ?_, ahead'⟩
      · exact reads_arguments.mpr ⟨a, as, c₁, rfl, read, more⟩
      · rw [eraseExprs_eq, eraseExprs_eq, List.map_cons, List.map_cons, same, sameOthers]

theorem restores_call (restores : RestoresExprs p bound)
    (stop : ∀ ⦃ts c⦄, Bracketed ts → Stands ts c → p.Refuses c) {name : String}
    (isName : IsName name) {args : List Expr} (shaped : ShapedExprs args)
    (enough : (argTokens args).length ≤ bound) :
    Restores (call p bound) (fun a => (a.1.erase, eraseExprs a.2.1))
      (.name name :: .mark '(' :: (argTokens args ++ [.mark ')']))
      (⟨name, default⟩, eraseExprs args) (fun _ => True) := by
  intro c ts _ stands
  rw [List.cons_append, List.cons_append, List.append_assoc] at stands
  obtain ⟨callee, c₁, named, rfl, ahead₁⟩ := Stands.name isName stands rfl
  obtain ⟨c₂, opened, ahead₂⟩ := Stands.mark ahead₁.skip
  obtain ⟨as, c₃, read, same, ahead₃⟩ :=
    restores_arguments restores stop shaped enough ⟨ts, rfl⟩ ahead₂.skip
  obtain ⟨c', closed, ahead'⟩ := Stands.mark ahead₃.skip
  refine ⟨(callee, as, c.mark.spanTo c'.mark), c', ?_, ?_, ahead'⟩
  · exact reads_call.mpr ⟨c₁, c₂, c₃, named, opened, read, closed, rfl⟩
  · exact Prod.ext rfl same

theorem restores_paren (restores : RestoresExprs p bound) {inner : Expr} (shaped : inner.Shaped)
    (enough : inner.tokens.length ≤ bound) (span : Span) :
    Restores (paren p) Expr.erase (Expr.paren inner span).tokens (Expr.paren inner span).erase
      (fun _ => True) := by
  intro c ts _ stands
  rw [Expr.tokens, List.cons_append, List.append_assoc] at stands
  obtain ⟨c₁, opened, ahead₁⟩ := Stands.mark stands
  obtain ⟨a, c₂, read, same, ahead₂⟩ :=
    restores inner shaped enough ⟨')', ts, rfl, by decide⟩ ahead₁.skip
  obtain ⟨c', closed, ahead'⟩ := Stands.mark ahead₂.skip
  refine ⟨.paren a (c.mark.spanTo c'.mark), c', ?_, ?_, ahead'⟩
  · exact reads_paren.mpr ⟨a, c₁, c₂, rfl, opened, read, closed⟩
  · rw [Expr.erase, Expr.erase, same]

/-- A name that begins an operand is no literal. -/
theorem refuses_constant_of_name {name : String} (isName : IsName name) {t : Token}
    {ts : List Token} {c : Cursor} (stands : Stands (.name name :: t :: ts) c)
    (apart : t.startsWord = false) : constant.Refuses c := by
  obtain ⟨d, s, split, same⟩ := stands.head
  obtain ⟨d', more, spelled, start, _⟩ := isName.1
  rw [Token.text, spelled] at same
  cases same
  have notDouble : d ≠ '"' := by
    rintro rfl
    exact absurd start (by decide)
  have notSingle : d ≠ '\'' := by
    rintro rfl
    exact absurd start (by decide)
  have other : name ∉ ["true", "false", "null"] := by
    intro mem
    refine isName.2 ?_
    simp only [List.mem_cons, List.not_mem_nil, or_false] at mem
    rcases mem with rfl | rfl | rfl <;> decide
  exact refuses_no_literal (stands.faces_name isName apart) other split
    (Lexeme.not_isDigit_of_isWordStart start) notDouble notSingle

/-- An operand is read back, if what follows ends it. -/
theorem restores_term (restores : RestoresExprs p bound)
    (stop : ∀ ⦃ts c⦄, Bracketed ts → Stands ts c → p.Refuses c) {e : Expr}
    (operand : e.IsOperand) (shaped : e.Shaped) (enough : e.tokens.length ≤ bound + 1) :
    Restores (term p bound) Expr.erase e.tokens e.erase Delimited := by
  intro c ts delimited stands
  cases e with
  | const literal span =>
      rw [Expr.tokens] at stands
      obtain ⟨span', c', read, ahead⟩ :=
        Stands.literal shaped stands fun s rendered => delimited.endsLiteral rendered
      exact ⟨_, c', reads_term.mpr (.inl read), rfl, ahead⟩
  | ident name span =>
      obtain ⟨t, us, rfl, _, apart, _, notBracket⟩ := delimited.cons
      rw [Expr.tokens] at stands
      obtain ⟨ident, c', named, rfl, ahead⟩ := Stands.name shaped stands apart
      have noCall : (call p bound).Refuses c :=
        refuses_call_of_mark named (refuses_other_mark ahead.skip notBracket)
      refine ⟨.ident ident.name ident.span, c', reads_term.mpr (.inr ⟨?_, .inr ⟨?_, .inl ?_⟩⟩), rfl,
        ahead⟩
      · exact refuses_constant_of_name shaped stands apart
      · exact refuses_callOperand noCall
      · exact reads_nameOperand.mpr ⟨ident, rfl, named⟩
  | call callee args span =>
      rw [Expr.tokens, List.length_cons, List.length_cons, List.length_append] at enough
      rw [Expr.tokens] at stands
      obtain ⟨⟨callee', args', span'⟩, c', read, same, ahead⟩ :=
        restores_call restores stop shaped.1 shaped.2 (by omega) trivial stands
      obtain ⟨sameName, sameArgs⟩ := Prod.mk.inj same
      refine ⟨.call callee' args' span', c', reads_term.mpr (.inr ⟨?_, .inl ?_⟩), ?_, ahead⟩
      · exact refuses_constant_of_name shaped.1 stands rfl
      · exact reads_callOperand.mpr ⟨callee', args', span', rfl, read⟩
      · rw [Expr.erase, Expr.erase, sameName, sameArgs]
        rfl
  | paren inner span =>
      have inside : inner.tokens.length ≤ bound := by
        rw [Expr.tokens, List.length_cons, List.length_append] at enough
        omega
      obtain ⟨noConstant, noName⟩ : constant.Refuses c ∧ identifier.Refuses c := by
        rw [Expr.tokens] at stands
        exact refuses_at_bracket (.inl rfl) stands
      have shapedInner : inner.Shaped := shaped
      obtain ⟨e, c', read, same, ahead⟩ :=
        restores_paren restores shapedInner inside span trivial stands
      refine ⟨e, c', reads_term.mpr (.inr ⟨noConstant, .inr ⟨?_, .inr ⟨?_, read⟩⟩⟩), same, ahead⟩
      · exact refuses_callOperand (refuses_call_of_identifier noName)
      · exact refuses_nameOperand noName
  | additive left op right span => exact absurd operand (Nat.ne_of_lt op.precedence_lt)
  | comparison left op right span => exact absurd operand (Nat.ne_of_lt op.precedence_lt)

theorem restores_link (op : BinOp) {e : Expr}
    (restores : Restores (term p bound) Expr.erase e.tokens e.erase Delimited) :
    Restores (link p bound) eraseLink (.operator op :: e.tokens) (eraseLink (op, e)) Delimited := by
  intro c ts delimited stands
  obtain ⟨c₁, read, ahead⟩ := Stands.operator stands
  obtain ⟨a, c', operand, same, ahead'⟩ := restores delimited ahead.skip
  refine ⟨(op, a), c', reads_link.mpr ⟨c₁, read, operand⟩, ?_, ahead'⟩
  exact Prod.ext rfl same

end

theorem binding_erase (e : Expr) : e.erase.binding = e.binding := by
  cases e <;> rfl

/-- Operands that look alike resolve to trees that look alike. -/
theorem erase_resolve {e x : Expr} {links : List (BinOp × Expr)} (shaped : e.Shaped)
    (first : x.erase = e.first.erase) (others : links.map eraseLink = e.links.map eraseLink) :
    (Precedence.resolve Expr.binary x links).erase = e.erase := by
  have operand : x.IsOperand := by
    rw [Expr.IsOperand, ← binding_erase, first, binding_erase]
    exact e.operands.1
  have operands : ∀ link ∈ links, link.2.IsOperand := by
    intro link mem
    have mapped := List.mem_map_of_mem (f := eraseLink) mem
    rw [others] at mapped
    obtain ⟨link', mem', same⟩ := List.mem_map.mp mapped
    rw [Expr.IsOperand, ← binding_erase, ← (Prod.mk.inj same).2, binding_erase]
    exact e.operands.2 link' mem'
  obtain ⟨grouped, sameFirst, sameLinks⟩ := resolve_spec operand operands
  refine grouped.unique ((Expr.shaped_iff e).mp shaped).1 ?_ ?_
  · rw [sameFirst, first]
  · rw [sameLinks, others]

/-- Expressions are read back, if what follows ends them. -/
theorem restores_expression (bound : Nat) : RestoresExprs (expression bound) bound := by
  induction bound with
  | zero =>
      intro e _ enough
      exact absurd (List.eq_nil_of_length_eq_zero (Nat.le_zero.mp enough)) e.tokens_ne_nil
  | succ bound ih =>
      intro e shaped enough c ts closed stands
      have stop : ∀ ⦃ts c⦄, Bracketed ts → Stands ts c → (expression bound).Refuses c :=
        fun ts c => refuses_expression bound
      obtain ⟨grouped, shapedFirst, shapedLinks⟩ := (Expr.shaped_iff e).mp shaped
      obtain ⟨operand, operands⟩ := e.operands
      rw [Expr.tokens_eq, linkTokens, List.length_append] at enough
      rw [Expr.tokens_eq, linkTokens, List.append_assoc] at stands
      have nonempty := List.length_pos_iff.mpr e.first.tokens_ne_nil
      have each : ∀ l ∈ e.links, Restores (link (expression bound) bound) eraseLink
          (.operator l.1 :: l.2.tokens) (eraseLink l) Delimited := by
        intro l mem
        have size := length_le_of_mem (fun l : BinOp × Expr => .operator l.1 :: l.2.tokens) mem
        rw [List.length_cons] at size
        exact restores_link l.1
          (restores_term ih stop (operands l mem) (shapedLinks l mem) (by omega))
      have next : ∀ l ∈ e.links, ∀ us, Delimited ((.operator l.1 :: l.2.tokens) ++ us) :=
        fun l _ us => .inr ⟨l.1, l.2.tokens ++ us, rfl⟩
      obtain ⟨x, c₁, read, same, ahead⟩ := restores_term ih stop operand shapedFirst (by omega)
        (follow_flatMap next (.inl closed)) stands
      have count := length_le_flatMap (fun l : BinOp × Expr => .operator l.1 :: l.2.tokens)
        (fun l => List.cons_ne_nil _ _) e.links
      have enoughLinks : e.links.length ≤ bound := by omega
      obtain ⟨links, c', more, sameLinks, ahead'⟩ := restores_many each next (fun ts => Or.inl)
        (fun c ts => refuses_closed) enoughLinks closed ahead.skip
      refine ⟨Precedence.resolve Expr.binary x links, c', ?_, erase_resolve shaped same sameLinks,
        ahead'⟩
      exact reads_expression.mpr ⟨x, links, c₁, rfl, read, more⟩

end Grammar

end TinyScript
