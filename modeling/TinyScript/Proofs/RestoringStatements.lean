import TinyScript.Proofs.RestoringExpressions

/-!
# Reading statements back

The rules for statements read well-shaped statements back from their tokens.
A statement ends where no alternative to it follows; as every alternative is
read as soon as it is met, it belongs to the innermost statement.
-/

namespace TinyScript

namespace Grammar

open Recognizer

/-- A statement ends where the next word is not the keyword of an alternative. -/
def Settled (ts : List Token) : Prop :=
  ∀ ⦃c : Cursor⦄, Stands ts c → ∃ word, c.Faces word ∧ word ≠ "else"

def Braced (ts : List Token) : Prop := ∃ us, ts = .mark '\x7d' :: us

theorem settled_nil : Settled [] := fun _ stands => ⟨"", stands.faces_nil, by decide⟩

theorem Braced.settled {ts : List Token} (braced : Braced ts) : Settled ts := by
  obtain ⟨us, rfl⟩ := braced
  intro c stands
  exact ⟨"", stands.faces_mark (by decide), by decide⟩

theorem ne_else_of_isName {name : String} (isName : IsName name) : name ≠ "else" := by
  rintro rfl
  exact isName.2 (by decide)

/-- A further statement is no alternative. -/
theorem settled_stmt {s : Stmt} (shaped : s.Shaped) (us : List Token) :
    Settled (s.tokens ++ us) := by
  intro c stands
  cases s with
  | assign target value span =>
      exact ⟨target.name, stands.faces_name shaped.1 rfl, ne_else_of_isName shaped.1⟩
  | call callee args span =>
      exact ⟨callee.name, stands.faces_name shaped.1 rfl, ne_else_of_isName shaped.1⟩
  | loop kind condition body otherwise span =>
      refine ⟨kind.keyword, stands.faces_keyword ?_ ?_, ?_⟩
      · cases kind <;> decide
      · simp [condition.tokens_ne_nil]
      · cases kind <;> decide
  | branch b =>
      obtain ⟨condition, body, otherwise, span⟩ := b
      refine ⟨"if", stands.faces_keyword (by decide) ?_, by decide⟩
      simp [condition.tokens_ne_nil]

section

variable {p : Recognizer Block} {q : Recognizer Branch} {bound : Nat} {c : Cursor}

theorem refuses_simpleStmt (refused : identifier.Refuses c) : (simpleStmt bound).Refuses c := by
  refine refuses_of_not_reads fun s c' read => ?_
  obtain ⟨c₁, read, _⟩ := reads_simpleStmt.mp read
  rcases read with read | ⟨_, read⟩
  · obtain ⟨target, value, c₂, c₃, _, named, _⟩ := reads_assignment.mp read
    exact refused.not_reads named
  · obtain ⟨callee, args, span, _, called⟩ := reads_callStmt.mp read
    exact (refuses_call_of_identifier refused).not_reads called

theorem refuses_branch {word : String} (faces : c.Faces word) (other : word ≠ "if") (links : Nat) :
    (branch p bound links).Refuses c := by
  refine refuses_of_not_reads fun b c' read => ?_
  cases links with
  | zero => exact not_reads_refuse read
  | succ links =>
      obtain ⟨_, _, _, _, c₁, c₂, c₃, _, keyword, _⟩ := reads_branch.mp read
      exact (refuses_word (by decide) faces other).not_reads keyword

theorem refuses_loop {word : String} (faces : c.Faces word) (other : word ∉ ["while", "until"]) :
    (loop p bound).Refuses c := by
  refine refuses_of_not_reads fun s c' read => ?_
  obtain ⟨_, _, _, _, c₁, c₂, c₃, _, keyword, _⟩ := reads_loop.mp read
  exact (refuses_words Lexeme.wordy_loops faces other).not_reads keyword

theorem refuses_alternative {word : String} (faces : c.Faces word) (other : word ≠ "else") :
    (alternative p q).Refuses c := by
  refine refuses_of_not_reads fun o c' read => ?_
  obtain ⟨_, c₁, keyword, _⟩ := reads_alternative.mp read
  exact (refuses_word (by decide) faces other).not_reads keyword

theorem refuses_block {p : Recognizer Stmt} {ts : List Token}
    (stands : Stands (.keyword "if" :: ts) c) : (block p bound).Refuses c := by
  refine refuses_of_not_reads fun b c' read => ?_
  obtain ⟨stmts, c₁, c₂, _, opened, _⟩ := reads_block.mp read
  exact (refuses_other_mark stands (by decide)).not_reads opened

theorem refuses_stmt (faces : c.Faces "") (bound : Nat) : (stmt bound).Refuses c := by
  refine refuses_of_not_reads fun s c' read => ?_
  cases bound with
  | zero => exact not_reads_refuse read
  | succ bound =>
      rcases reads_stmt.mp read with simple | ⟨_, ⟨b, branched, _⟩ | ⟨_, looped⟩⟩
      · exact (refuses_simpleStmt (refuses_no_name faces (not_isName (.inl rfl)))).not_reads simple
      · exact (refuses_branch faces (by decide) bound).not_reads branched
      · exact (refuses_loop faces (by decide)).not_reads looped

end

/-- An assignment is refused where a name is followed by something else than an equals sign. -/
theorem refuses_assignment {bound : Nat} {c c₁ : Cursor} {ident : Ident}
    (named : identifier.Reads c ident c₁) (refused : (symbol ['=']).Refuses c₁.skip) :
    (assignment bound).Refuses c := by
  refine refuses_of_not_reads fun s c' read => ?_
  obtain ⟨target, value, c₂, c₃, _, named', sign, _⟩ := reads_assignment.mp read
  obtain ⟨rfl, rfl⟩ := named.unique named'
  exact refused.not_reads sign

theorem restores_assign {bound : Nat} {target : Ident} {value : Expr} (span : Span)
    (isName : IsName target.name) (shaped : value.Shaped) (enough : value.tokens.length ≤ bound) :
    Restores (simpleStmt bound) Stmt.erase (Stmt.assign target value span).tokens
      (Stmt.assign target value span).erase (fun _ => True) := by
  intro c ts _ stands
  rw [Stmt.tokens, List.cons_append, List.cons_append, List.append_assoc] at stands
  obtain ⟨ident, c₁, named, same, ahead₁⟩ := Stands.name isName stands rfl
  obtain ⟨c₂, sign, ahead₂⟩ := Stands.mark ahead₁.skip
  obtain ⟨e, c₃, read, sameValue, ahead₃⟩ :=
    restores_expression bound value shaped enough ⟨';', ts, rfl, by decide⟩ ahead₂.skip
  obtain ⟨c', closed, ahead'⟩ := Stands.mark ahead₃.skip
  refine ⟨.assign ident e (c.mark.spanTo c₃.mark), c', reads_simpleStmt.mpr ⟨c₃, .inl ?_, closed⟩,
    ?_, ahead'⟩
  · exact reads_assignment.mpr ⟨ident, e, c₁, c₂, rfl, named, sign, read⟩
  · rw [Stmt.erase, Stmt.erase, Ident.erase, Ident.erase, same, sameValue]

theorem restores_callStmt {bound : Nat} {callee : Ident} {args : List Expr} (span : Span)
    (isName : IsName callee.name) (shaped : ShapedExprs args)
    (enough : (argTokens args).length ≤ bound) :
    Restores (simpleStmt bound) Stmt.erase (Stmt.call callee args span).tokens
      (Stmt.call callee args span).erase (fun _ => True) := by
  intro c ts _ stands
  have whole : Stands (.name callee.name :: .mark '(' ::
      (argTokens args ++ [.mark ')']) ++ .mark ';' :: ts) c := by
    rw [Stmt.tokens] at stands
    simpa using stands
  obtain ⟨ident, c₁, named, _, ahead₁⟩ := Stands.name isName whole rfl
  obtain ⟨⟨callee', args', span'⟩, c₂, read, same, ahead₂⟩ :=
    restores_call (restores_expression bound) (fun ts c => refuses_expression bound) isName shaped
      enough trivial whole
  obtain ⟨c', closed, ahead'⟩ := Stands.mark ahead₂.skip
  obtain ⟨sameName, sameArgs⟩ := Prod.mk.inj same
  refine ⟨.call callee' args' span', c', reads_simpleStmt.mpr ⟨c₂, .inr ⟨?_, ?_⟩, closed⟩, ?_,
    ahead'⟩
  · exact refuses_assignment named (refuses_other_mark ahead₁.skip (by decide))
  · exact reads_callStmt.mpr ⟨callee', args', span', rfl, read⟩
  · rw [Stmt.erase, Stmt.erase, sameName, sameArgs]
    rfl

def RestoresStmts (p : Recognizer Stmt) (size : Nat) : Prop :=
  ∀ s : Stmt, s.Shaped → s.tokens.length ≤ size → Restores p Stmt.erase s.tokens s.erase Settled

section

variable {p : Recognizer Stmt} {q : Recognizer Branch} {bound : Nat}

/-- Statements are read one after the other, up to a place where none is. -/
theorem restores_stmts (restores : RestoresStmts p bound) {last : List Token → Prop}
    (ending : ∀ ts, last ts → Settled ts) (stop : ∀ c ts, last ts → Stands ts c → p.Refuses c)
    {ss : List Stmt} (shaped : ShapedStmts ss) (enough : (stmtTokens ss).length ≤ bound) :
    Restores (many bound p) (List.map Stmt.erase) (stmtTokens ss) (ss.map Stmt.erase) last := by
  rw [shapedStmts_iff] at shaped
  rw [stmtTokens_eq] at enough ⊢
  refine restores_many ?_ (fun s mem => settled_stmt (shaped s mem)) ending stop ?_
  · intro s mem
    exact restores s (shaped s mem) (Nat.le_trans (length_le_of_mem Stmt.tokens mem) enough)
  · exact Nat.le_trans (length_le_flatMap Stmt.tokens Stmt.tokens_ne_nil ss) enough

variable (restores : RestoresStmts p bound)
  (stop : ∀ c ts, Braced ts → Stands ts c → p.Refuses c)

include restores stop

theorem restores_block {b : Block} (shaped : b.Shaped) (enough : b.tokens.length ≤ bound + 1) :
    Restores (block p bound) Block.erase b.tokens b.erase (fun _ => True) := by
  intro c ts _ stands
  obtain ⟨stmts, span⟩ := b
  rw [Block.tokens, List.length_cons, List.length_append] at enough
  rw [Block.tokens, List.cons_append, List.append_assoc] at stands
  obtain ⟨c₁, opened, ahead₁⟩ := Stands.mark stands
  obtain ⟨ss, c₂, read, same, ahead₂⟩ := restores_stmts restores (fun ts => Braced.settled) stop
    shaped (by omega) ⟨ts, rfl⟩ ahead₁.skip
  obtain ⟨c', closed, ahead'⟩ := Stands.mark ahead₂.skip
  refine ⟨.mk ss (c.mark.spanTo c'.mark), c', ?_, ?_, ahead'⟩
  · exact reads_block.mpr ⟨ss, c₁, c₂, rfl, opened, read, closed⟩
  · rw [Block.erase, Block.erase, eraseStmts_eq, eraseStmts_eq, same]

theorem restores_otherwise {o : Otherwise} (shaped : o.Shaped) (enough : o.tokens.length ≤ bound)
    (further : ∀ b, o = .branch b → Restores q Branch.erase b.tokens b.erase Settled) :
    Restores (otherwise (block p bound) q) Otherwise.erase o.tokens o.erase Settled := by
  intro c ts settled stands
  cases o with
  | nothing =>
      obtain ⟨word, faces, other⟩ := settled stands
      refine ⟨.nothing, c, reads_otherwise.mpr (.inr ⟨?_, rfl, rfl⟩), rfl, stands.ahead⟩
      exact refuses_alternative faces other
  | block body =>
      rw [Otherwise.tokens, List.length_cons] at enough
      rw [Otherwise.tokens, List.cons_append] at stands
      obtain ⟨c₁, keyword, ahead₁⟩ := Stands.word .elseKeyword
        (by decide) stands (by cases body; simp [Block.tokens])
      obtain ⟨b, c', read, same, ahead'⟩ :=
        restores_block restores stop shaped (by omega) trivial ahead₁.skip
      refine ⟨.block b, c', reads_otherwise.mpr (.inl ?_), ?_, ahead'⟩
      · exact reads_alternative.mpr ⟨_, c₁, keyword, .inl ⟨b, read, rfl⟩⟩
      · rw [Otherwise.erase, Otherwise.erase, same]
  | branch inner =>
      rw [Otherwise.tokens, List.cons_append] at stands
      obtain ⟨c₁, keyword, ahead₁⟩ := Stands.word .elseKeyword
        (by decide) stands (by cases inner; simp [Branch.tokens])
      obtain ⟨b, c', read, same, ahead'⟩ := further inner rfl settled ahead₁.skip
      have noBlock : (block p bound).Refuses c₁.skip := by
        cases inner
        exact refuses_block ahead₁.skip
      refine ⟨.branch b, c', reads_otherwise.mpr (.inl ?_), ?_, ahead'⟩
      · exact reads_alternative.mpr ⟨_, c₁, keyword, .inr ⟨noBlock, b, read, rfl⟩⟩
      · rw [Otherwise.erase, Otherwise.erase, same]

/-- A condition, the block it guards and the alternative are read back behind a keyword. -/
theorem restores_guarded {condition : Expr} {body : Block} {other : Otherwise}
    (shaped : condition.Shaped ∧ body.Shaped ∧ other.Shaped)
    (enough : (condition.tokens ++ (body.tokens ++ other.tokens)).length ≤ bound)
    (further : ∀ b, other = .branch b → Restores q Branch.erase b.tokens b.erase Settled)
    {c : Cursor} {ts : List Token} (settled : Settled ts)
    (ahead : Ahead ((condition.tokens ++ (body.tokens ++ other.tokens)) ++ ts) c) :
    ∃ condition' body' other' c₁ c₂ c', (expression bound).Reads c.skip condition' c₁ ∧
      (block p bound).Reads c₁.skip body' c₂ ∧
      (otherwise (block p bound) q).Reads c₂.skip other' c' ∧
      condition'.erase = condition.erase ∧ body'.erase = body.erase ∧ other'.erase = other.erase ∧
      Ahead ts c' := by
  rw [List.length_append, List.length_append] at enough
  rw [List.append_assoc, List.append_assoc] at ahead
  have closed : Closed (body.tokens ++ (other.tokens ++ ts)) := by
    cases body
    exact ⟨'\x7b', _, rfl, by decide⟩
  obtain ⟨condition', c₁, guard, sameGuard, ahead₁⟩ :=
    restores_expression bound condition shaped.1 (by omega) closed ahead.skip
  obtain ⟨body', c₂, read, sameBody, ahead₂⟩ :=
    restores_block restores stop shaped.2.1 (by omega) trivial ahead₁.skip
  obtain ⟨other', c', more, sameOther, ahead'⟩ :=
    restores_otherwise restores stop shaped.2.2 (by omega) further settled ahead₂.skip
  exact ⟨condition', body', other', c₁, c₂, c', guard, read, more, sameGuard, sameBody, sameOther,
    ahead'⟩

/-- A branch is read back with all its alternatives; each further branch has fewer tokens. -/
theorem restores_branch {b : Branch} (shaped : b.Shaped) (enough : b.tokens.length ≤ bound + 1)
    {links : Nat} (allowed : b.tokens.length ≤ links + 1) :
    Restores (branch (block p bound) bound links) Branch.erase b.tokens b.erase Settled := by
  induction links generalizing b with
  | zero =>
      obtain ⟨condition, body, other, span⟩ := b
      have nonempty := List.length_pos_iff.mpr condition.tokens_ne_nil
      rw [Branch.tokens, List.length_cons, List.length_append] at allowed
      omega
  | succ links ih =>
      intro c ts settled stands
      obtain ⟨condition, body, other, span⟩ := b
      have nonempty := List.length_pos_iff.mpr condition.tokens_ne_nil
      rw [Branch.tokens, List.length_cons] at enough allowed
      rw [Branch.tokens, List.cons_append] at stands
      have further : ∀ b, other = .branch b → Restores (branch (block p bound) bound links)
          Branch.erase b.tokens b.erase Settled := by
        rintro b rfl
        rw [Otherwise.tokens, List.length_append, List.length_append, List.length_cons]
          at enough allowed
        exact ih shaped.2.2 (by omega) (by omega)
      obtain ⟨c₁, keyword, ahead₁⟩ := Stands.word .ifKeyword
        (by decide) stands (by simp [condition.tokens_ne_nil])
      obtain ⟨condition', body', other', c₂, c₃, c', guard, read, more, sameGuard, sameBody,
        sameOther, ahead'⟩ :=
        restores_guarded restores stop shaped (by omega) further settled ahead₁
      refine ⟨.mk condition' body' other' (c.mark.spanTo c'.mark), c', ?_, ?_, ahead'⟩
      · exact reads_branch.mpr
          ⟨_, condition', body', other', c₁, c₂, c₃, rfl, keyword, guard, read, more⟩
      · rw [Branch.erase, Branch.erase, sameGuard, sameBody, sameOther]

theorem restores_loop {kind : LoopKind} {condition : Expr} {body : Block} {other : Otherwise}
    (span : Span) (shaped : condition.Shaped ∧ body.Shaped ∧ other.Shaped)
    (enough : (Stmt.loop kind condition body other span).tokens.length ≤ bound + 1) :
    Restores (loop (block p bound) bound) Stmt.erase
      (Stmt.loop kind condition body other span).tokens
      (Stmt.loop kind condition body other span).erase Settled := by
  intro c ts settled stands
  rw [Stmt.tokens, List.length_cons] at enough
  rw [Stmt.tokens, List.cons_append] at stands
  have further : ∀ b, other = .branch b → Restores (branch (block p bound) bound bound)
      Branch.erase b.tokens b.erase Settled := by
    rintro b rfl
    rw [Otherwise.tokens, List.length_append, List.length_append, List.length_cons] at enough
    exact restores_branch restores stop shaped.2.2 (by omega) (by omega)
  have same : loopKind kind.keyword = kind ∧ kind.keyword ∈ ["while", "until"] := by
    cases kind <;> decide
  obtain ⟨c₁, keyword, ahead₁⟩ := Stands.words .loopKeyword
    Lexeme.wordy_loops same.2 stands (by simp [condition.tokens_ne_nil])
  obtain ⟨condition', body', other', c₂, c₃, c', guard, read, more, sameGuard, sameBody, sameOther,
    ahead'⟩ := restores_guarded restores stop shaped (by omega) further settled ahead₁
  refine ⟨.loop kind condition' body' other' (c.mark.spanTo c'.mark), c', ?_, ?_, ahead'⟩
  · refine reads_loop.mpr ⟨_, condition', body', other', c₁, c₂, c₃, ?_, keyword, guard, read, more⟩
    rw [same.1]
  · rw [Stmt.erase, Stmt.erase, sameGuard, sameBody, sameOther]

end

/-- Statements are read back, if what follows is no alternative to them. -/
theorem restores_stmt (bound : Nat) : RestoresStmts (stmt bound) bound := by
  induction bound with
  | zero =>
      intro s _ enough
      exact absurd (List.eq_nil_of_length_eq_zero (Nat.le_zero.mp enough)) s.tokens_ne_nil
  | succ bound ih =>
      have stop : ∀ c ts, Braced ts → Stands ts c → (stmt bound).Refuses c := by
        rintro c _ ⟨us, rfl⟩ stands
        exact refuses_stmt (stands.faces_mark (by decide)) bound
      intro s shaped enough c ts settled stands
      cases s with
      | assign target value span =>
          rw [Stmt.tokens, List.length_cons, List.length_cons, List.length_append] at enough
          have inside : value.tokens.length ≤ bound := by omega
          obtain ⟨s, c', read, same, ahead⟩ :=
            restores_assign span shaped.1 shaped.2 inside trivial stands
          exact ⟨s, c', reads_stmt.mpr (.inl read), same, ahead⟩
      | call callee args span =>
          rw [Stmt.tokens, List.length_cons, List.length_cons, List.length_append] at enough
          have inside : (argTokens args).length ≤ bound := by omega
          obtain ⟨s, c', read, same, ahead⟩ :=
            restores_callStmt span shaped.1 shaped.2 inside trivial stands
          exact ⟨s, c', reads_stmt.mpr (.inl read), same, ahead⟩
      | branch b =>
          obtain ⟨b', c', read, same, ahead⟩ :=
            restores_branch ih stop shaped enough enough settled stands
          refine ⟨.branch b', c', reads_stmt.mpr (.inr ⟨?_, .inl ⟨b', read, rfl⟩⟩), ?_, ahead⟩
          · obtain ⟨condition, body, other, span⟩ := b
            have faces : c.Faces "if" :=
              stands.faces_keyword (by decide) (by simp [condition.tokens_ne_nil])
            exact refuses_simpleStmt (refuses_no_name faces (not_isName (.inr (by decide))))
          · rw [Stmt.erase, Stmt.erase, same]
      | loop kind condition body other span =>
          have faces : c.Faces kind.keyword := by
            refine stands.faces_keyword ?_ (by simp [condition.tokens_ne_nil])
            cases kind <;> decide
          have word : kind.keyword ∈ Lexeme.keywords ∧ kind.keyword ≠ "if" := by
            cases kind <;> decide
          obtain ⟨s, c', read, same, ahead⟩ :=
            restores_loop ih stop span shaped enough settled stands
          refine ⟨s, c', reads_stmt.mpr (.inr ⟨?_, .inr ⟨?_, read⟩⟩), same, ahead⟩
          · exact refuses_simpleStmt (refuses_no_name faces (not_isName (.inr word.1)))
          · exact refuses_branch faces word.2 bound

end Grammar

end TinyScript
