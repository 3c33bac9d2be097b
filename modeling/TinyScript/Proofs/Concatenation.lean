import TinyScript.Proofs.Relocating

/-!
# Scripts one behind the other

A newline between two scripts joins them to one script.  It ends a comment that
the first script leaves open, and it is skipped where an alternative might
follow, so neither script is read differently: the statements of both stand one
behind the other, and those of the second are moved down by the lines of the
first.
-/

namespace TinyScript

def Position.lower (lines : Nat) (p : Position) : Position :=
  ⟨p.line + UInt32.ofNat lines, p.column⟩

def Span.lower (lines : Nat) (span : Span) : Span :=
  ⟨span.start.lower lines, span.stop.lower lines⟩

def Position.Near (lines : Nat) (p : Position) : Prop := p.line.toNat + lines < UInt32.size

def Span.Near (lines : Nat) (span : Span) : Prop := span.start.Near lines ∧ span.stop.Near lines

section

variable {lines : Nat} {p q : Position}

theorem Position.Near.toNat_line (near : p.Near lines) :
    (p.lower lines).line.toNat = p.line.toNat + lines := by
  have small : (UInt32.ofNat lines).toNat = lines :=
    UInt32.toNat_ofNat_of_lt (Nat.lt_of_le_of_lt (Nat.le_add_left _ _) near)
  rw [Position.lower, UInt32.toNat_add, small]
  exact Nat.mod_eq_of_lt near

theorem Position.lower_le (first : p.Near lines) (second : q.Near lines) :
    p.lower lines ≤ q.lower lines ↔ p ≤ q := by
  have lineOfP := first.toNat_line
  have lineOfQ := second.toNat_line
  change (p.lower lines).line < (q.lower lines).line ∨
      (p.lower lines).line = (q.lower lines).line ∧ p.column ≤ q.column ↔
    p.line < q.line ∨ p.line = q.line ∧ p.column ≤ q.column
  rw [UInt32.lt_iff_toNat_lt, UInt32.lt_iff_toNat_lt, ← UInt32.toNat_inj, ← UInt32.toNat_inj,
    lineOfP, lineOfQ, Nat.add_lt_add_iff_right, Nat.add_right_cancel_iff]

theorem Position.lower_min (first : p.Near lines) (second : q.Near lines) :
    (min p q).lower lines = min (p.lower lines) (q.lower lines) ∧ (min p q).Near lines := by
  change (if p ≤ q then p else q).lower lines =
      (if p.lower lines ≤ q.lower lines then p.lower lines else q.lower lines) ∧
    (if p ≤ q then p else q).Near lines
  rw [if_congr (Position.lower_le first second) rfl rfl]
  split
  · exact ⟨rfl, first⟩
  · exact ⟨rfl, second⟩

theorem Position.lower_max (first : p.Near lines) (second : q.Near lines) :
    (max p q).lower lines = max (p.lower lines) (q.lower lines) ∧ (max p q).Near lines := by
  change (if p ≤ q then q else p).lower lines =
      (if p.lower lines ≤ q.lower lines then q.lower lines else p.lower lines) ∧
    (if p ≤ q then q else p).Near lines
  rw [if_congr (Position.lower_le first second) rfl rfl]
  split
  · exact ⟨rfl, second⟩
  · exact ⟨rfl, first⟩

end

/-- One span is another one moved down, and the line numbers stay within 32 bits. -/
def Span.LowerBy (lines : Nat) (a b : Span) : Prop := b = a.lower lines ∧ a.Near lines

namespace Mark

/-- The column depends on the line that is begun and not on the lines before it. -/
theorem column_advance {m n : Mark} (same : m.column = n.column) (chars : List Char) :
    (m.advance chars).column = (n.advance chars).column := by
  induction chars generalizing m n with
  | nil => exact same
  | cons c chars ih =>
      apply ih
      unfold step
      split
      · rfl
      · exact congrArg (· + 1) same

end Mark

theorem skipTrivia_rest (inComment : Bool) (m n : Mark) (s : List Char) :
    (skipTrivia inComment m s).rest = (skipTrivia inComment n s).rest := by
  induction s generalizing inComment m n with
  | nil => rfl
  | cons c rest ih =>
      rw [skipTrivia, skipTrivia]
      split
      · exact ih _ _ _
      · split
        · exact ih _ _ _
        · split
          · exact ih _ _ _
          · rfl

/-- The same text is ahead of two cursors, the second one being some lines further down. -/
structure Cursor.LowerBy (lines : Nat) (c d : Cursor) : Prop where
  rest : d.rest = c.rest
  line : d.mark.line = c.mark.line + lines
  column : d.mark.column = c.mark.column
  /-- No line number leaves 32 bits. -/
  counted : c.mark.line + c.rest.count '\n' + lines < UInt32.size

namespace Cursor.LowerBy

variable {lines : Nat} {c d c' d' : Cursor}

theorem leads (lower : c.LowerBy lines d) {w : List Char} (first : c.Leads w c')
    (second : d.Leads w d') : c'.LowerBy lines d' where
  rest := by
    have split := lower.rest
    rw [first.1, second.1] at split
    exact List.append_cancel_left split
  line := by
    rw [second.2, first.2, Mark.line_advance, Mark.line_advance, lower.line]
    exact Nat.add_right_comm _ _ _
  column := by
    rw [second.2, first.2]
    exact Mark.column_advance lower.column w
  counted := by
    have counted := lower.counted
    rw [first.1, List.count_append] at counted
    rw [first.2, Mark.line_advance]
    omega

theorem skip (lower : c.LowerBy lines d) : c.skip.LowerBy lines d.skip := by
  obtain ⟨w, first⟩ := c.leads_skip
  obtain ⟨w', second⟩ := d.leads_skip
  have same : d.skip.rest = c.skip.rest := by
    unfold Cursor.skip
    rw [lower.rest]
    exact skipTrivia_rest false _ _ _
  have ahead := lower.rest
  rw [first.1, second.1, same] at ahead
  rw [List.append_cancel_right ahead] at second
  exact lower.leads first second

theorem position (lower : c.LowerBy lines d) :
    d.mark.position = c.mark.position.lower lines ∧ c.mark.position.Near lines := by
  have counted := lower.counted
  have small : (UInt32.ofNat c.mark.line).toNat = c.mark.line :=
    UInt32.toNat_ofNat_of_lt (by omega)
  constructor
  · rw [Mark.position, lower.line, lower.column, UInt32.ofNat_add]
    rfl
  · rw [Position.Near, Mark.position, small]
    omega

end Cursor.LowerBy

theorem parallel_lowerBy (lines : Nat) :
    Parallel (Cursor.LowerBy lines) (Span.LowerBy lines) where
  skip lower := lower.skip
  takes lower first second := lower.leads first.2 second.2
  span lower lower' := by
    obtain ⟨start, near⟩ := lower.position
    obtain ⟨stop, near'⟩ := lower'.position
    refine ⟨?_, near, near'⟩
    rw [Mark.spanTo, start, stop]
    rfl
  merge := by
    rintro a _ a' _ ⟨rfl, near⟩ ⟨rfl, near'⟩
    obtain ⟨start, nearStart⟩ := Position.lower_min near.1 near'.1
    obtain ⟨stop, nearStop⟩ := Position.lower_max near.2 near'.2
    refine ⟨?_, nearStart, nearStop⟩
    exact congrArg₂ Span.mk start.symm stop.symm

def seam (s r : List Char) : Cursor := ⟨(Mark.origin.advance s).step '\n', r⟩

/--
Skipping stops in the first text where it did, or else it goes on behind the
newline, which ends a comment at the end of the text.
-/
theorem skipTrivia_seam (inComment : Bool) (mark : Mark) (s r : List Char) :
    ((skipTrivia inComment mark s).rest = [] ∧ skipTrivia inComment mark (s ++ '\n' :: r) =
      skipTrivia false ((mark.advance s).step '\n') r) ∨
    ((skipTrivia inComment mark s).rest ≠ [] ∧ skipTrivia inComment mark (s ++ '\n' :: r) =
      ⟨(skipTrivia inComment mark s).mark, (skipTrivia inComment mark s).rest ++ '\n' :: r⟩) := by
  induction s generalizing inComment mark with
  | nil =>
      refine .inl ⟨rfl, ?_⟩
      cases inComment <;> rfl
  | cons c s ih =>
      have ahead : (s ++ '\n' :: r).head? = some '/' ↔ s.head? = some '/' := by
        cases s with
        | nil => exact iff_of_false (by simp) (by simp)
        | cons d s => exact Iff.rfl
      have slashes : (c == '/' && (s ++ '\n' :: r).head? == some '/') =
          (c == '/' && s.head? == some '/') := by
        rw [Bool.eq_iff_iff, Bool.and_eq_true, Bool.and_eq_true, beq_iff_eq, beq_iff_eq, beq_iff_eq,
          ahead]
      rw [List.cons_append, skipTrivia, skipTrivia, slashes, Mark.advance_cons]
      split
      · exact ih _ _
      · split
        · exact ih _ _
        · split
          · exact ih _ _
          · exact .inr ⟨List.cons_ne_nil _ _, rfl⟩

/--
The second cursor has the newline and the second text behind what the first one
has ahead, or the first text is at its end and the second text is reached.
-/
def Cursor.Continues (s r : List Char) (c d : Cursor) : Prop :=
  c.Within s ∧ ((d.mark = c.mark ∧ d.rest = c.rest ++ '\n' :: r) ∨
    (c.rest = [] ∧ d = (seam s r).skip))

namespace Cursor.Continues

variable {s r : List Char} {c d c' d' : Cursor}

/-- Where skipping comes to the end of the first text, it goes on in the second one. -/
theorem skip_eq (continued : c.Continues s r d) (atEnd : c.skip.rest = []) :
    d.skip = (seam s r).skip := by
  obtain ⟨⟨front, split, marked⟩, ⟨mark, rest⟩ | ⟨_, rfl⟩⟩ := continued
  · rcases skipTrivia_seam false c.mark c.rest r with ⟨_, skipped⟩ | ⟨visible, _⟩
    · rw [Cursor.skip, mark, rest, skipped, marked, ← Mark.advance_append, ← split]
      rfl
    · exact absurd atEnd visible
  · exact Cursor.skip_skip _

theorem skip (continued : c.Continues s r d) : c.skip.Continues s r d.skip := by
  refine ⟨continued.1.skip, ?_⟩
  by_cases atEnd : c.skip.rest = []
  · exact .inr ⟨atEnd, continued.skip_eq atEnd⟩
  · obtain ⟨_, ⟨mark, rest⟩ | ⟨empty, _⟩⟩ := continued
    · rcases skipTrivia_seam false c.mark c.rest r with ⟨none, _⟩ | ⟨_, skipped⟩
      · exact absurd none atEnd
      · rw [Cursor.skip, mark, rest, skipped]
        exact .inl ⟨rfl, rfl⟩
    · refine absurd ?_ atEnd
      rw [Cursor.skip, empty]
      rfl

theorem takes {w : List Char} (continued : c.Continues s r d) (first : c.Takes w c')
    (second : d.Takes w d') : c'.Continues s r d' := by
  obtain ⟨visible, leads⟩ := first
  refine ⟨continued.1.behind leads, ?_⟩
  obtain ⟨_, ⟨mark, rest⟩ | ⟨empty, _⟩⟩ := continued
  · rw [leads.1, second.2.1, List.append_assoc] at rest
    refine .inl ⟨?_, List.append_cancel_left rest⟩
    rw [second.2.2, leads.2, mark]
  · rw [leads.1] at empty
    exact absurd (List.append_eq_nil_iff.1 empty).1 visible

end Cursor.Continues

theorem parallel_continues (s r : List Char) :
    Parallel (Cursor.Continues s r) fun _ _ => True where
  skip continued := continued.skip
  takes continued first second := continued.takes first second
  span _ _ := trivial
  merge _ _ := trivial

theorem Trivia.newline {atEnd : Bool} {w : List Char} (trivia : Trivia atEnd w) :
    Trivia false (w ++ ['\n']) := by
  induction trivia with
  | nil => exact .blank rfl .nil
  | blank isBlank others ih => exact .blank isBlank ih
  | comment oneLine others ih =>
      have joined := Trivia.comment oneLine ih
      simpa using joined
  | lastComment oneLine => exact .comment oneLine .nil

theorem Renders.append {afterKeyword : Bool} {ts us : List Token} {s r : List Char}
    (first : Renders afterKeyword ts s) (second : Renders false us r) :
    Renders afterKeyword (ts ++ us) (s ++ '\n' :: r) := by
  induction first with
  | @ending afterKeyword w gap =>
      have behind : Renders false us ((w ++ ['\n']) ++ r) := second.prepend gap.newline
      rw [List.append_assoc] at behind
      refine behind.behindKeyword ?_ afterKeyword
      cases w with
      | nil => rfl
      | cons d w => exact not_wordChar_of_trivia gap.first
  | @token _ t ts w s gap apart rest ih =>
      rw [List.append_assoc, List.append_assoc]
      exact .token gap apart ih

/-- Every token takes a character that is no newline. -/
theorem Renders.lines_le {afterKeyword : Bool} {ts : List Token} {s : List Char}
    (rendered : Renders afterKeyword ts s) (solid : ∀ t ∈ ts, t.Solid) :
    ts.length + s.count '\n' ≤ s.length := by
  induction rendered with
  | ending gap =>
      rw [List.length_nil, Nat.zero_add]
      exact List.count_le_length
  | @token _ t ts w s gap apart rest ih =>
      rw [List.forall_mem_cons] at solid
      have others := ih solid.2
      have between : w.count '\n' ≤ w.length := List.count_le_length
      have visible : t.text.count '\n' + 1 ≤ t.text.length := by
        obtain ⟨nonempty, stops⟩ := solid.1
        obtain ⟨d, more, spelled⟩ := List.exists_cons_of_ne_nil nonempty
        rw [spelled] at stops ⊢
        have first : d ≠ '\n' := by
          rintro rfl
          exact absurd stops.1 (by decide)
        rw [List.count_cons_of_ne first, List.length_cons]
        exact Nat.succ_le_succ List.count_le_length
      rw [List.length_cons, List.count_append, List.count_append, List.length_append,
        List.length_append]
      omega

theorem Stmt.two_le_tokens (s : Stmt) : 2 ≤ s.tokens.length := by
  have guarded (word : String) (condition : Expr) (body : Block) (otherwise : Otherwise) :
      2 ≤ (Token.keyword word ::
        (condition.tokens ++ (body.tokens ++ otherwise.tokens))).length := by
    cases body
    simp only [Block.tokens, List.length_cons, List.length_append]
    omega
  cases s with
  | assign target value span => simp [Stmt.tokens]
  | call callee args span => simp [Stmt.tokens]
  | loop kind condition body otherwise span => exact guarded _ condition body otherwise
  | branch b =>
      cases b with
      | mk condition body otherwise span => exact guarded _ condition body otherwise

theorem tallestOf_append (ss ts : List Stmt) :
    tallestOf (ss ++ ts) = max (tallestOf ss) (tallestOf ts) := by
  induction ss with
  | nil => exact (Nat.zero_max _).symm
  | cons s ss ih => rw [List.cons_append, tallestOf, tallestOf, ih, Nat.max_assoc]

theorem mostBracketsOf_append (ss ts : List Stmt) :
    mostBracketsOf (ss ++ ts) = max (mostBracketsOf ss) (mostBracketsOf ts) := by
  induction ss with
  | nil => exact (Nat.zero_max _).symm
  | cons s ss ih => rw [List.cons_append, mostBracketsOf, mostBracketsOf, ih, Nat.max_assoc]

/-- The statements of two well-shaped programs make a well-shaped program. -/
theorem Program.WellShaped.append {p q : Program} (first : p.WellShaped) (second : q.WellShaped)
    (span : Span) : Program.WellShaped ⟨p.stmts ++ q.stmts, span⟩ where
  shaped := by
    rw [shapedStmts_iff, List.forall_mem_append]
    exact ⟨(shapedStmts_iff _).1 first.shaped, (shapedStmts_iff _).1 second.shaped⟩
  low := by
    rw [tallestOf_append]
    exact Nat.max_le.2 ⟨first.low, second.low⟩
  shallow := by
    rw [mostBracketsOf_append]
    exact Nat.max_le.2 ⟨first.shallow, second.shallow⟩

theorem Program.RenderedBy.append {p q : Program} {s r : String} (first : p.RenderedBy s)
    (second : q.RenderedBy r) (span : Span) :
    Program.RenderedBy ⟨p.stmts ++ q.stmts, span⟩ (s ++ "\n" ++ r) := by
  have joined := Renders.append first second
  rw [Program.tokens, Program.tokens, stmtTokens_eq, stmtTokens_eq, ← List.flatMap_append,
    ← stmtTokens_eq] at joined
  rw [Program.RenderedBy, String.toList_append, String.toList_append, List.append_assoc]
  exact joined

theorem Source.lineCount_eq (source : Source) :
    source.lineCount = source.text.toList.count '\n' + 1 :=
  length_linesFrom 0 [] source.text.toList

/-- The lines of two scripts are counted within 32 bits if the second one has a statement. -/
theorem lineCount_add_lt {first second : Source} {program : Program}
    (short : first.text.utf8ByteSize + second.text.utf8ByteSize < UInt32.size)
    (parsed : second.parse = .ok program) (some : program.stmts ≠ []) :
    first.lineCount + second.lineCount < UInt32.size := by
  obtain ⟨wellShaped, rendered⟩ := rendered_of_parse parsed
  have solid : ∀ t ∈ program.tokens, t.Solid :=
    fun t mem => (lexical_stmtTokens wellShaped.shaped t mem).solid
  have lines := rendered.lines_le solid
  have tokens : 2 ≤ program.tokens.length := by
    obtain ⟨s, ss, same⟩ := List.exists_cons_of_ne_nil some
    rw [Program.tokens, same, stmtTokens, List.length_append]
    exact Nat.le_add_right_of_le s.two_le_tokens
  have newlines : first.text.toList.count '\n' ≤ first.text.toList.length := List.count_le_length
  have size := length_le_utf8ByteSize first.text
  have size' := length_le_utf8ByteSize second.text
  rw [first.lineCount_eq, second.lineCount_eq]
  omega

/-- The beginning of the second text, alone and behind the first one. -/
theorem lowerBy_seam {first second : Source}
    (counted : first.lineCount + second.lineCount < UInt32.size) :
    (Cursor.ofText second.text).LowerBy first.lineCount
      (seam first.text.toList second.text.toList) where
  rest := rfl
  line := by
    change (Mark.origin.advance first.text.toList).line + 1 = 1 + first.lineCount
    rw [Mark.line_advance, first.lineCount_eq]
    exact Nat.add_assoc _ _ _
  column := rfl
  counted := by
    rw [second.lineCount_eq] at counted
    change 1 + second.text.toList.count '\n' + first.lineCount < UInt32.size
    omega

/-- Where statements that look like those of a script are taken, the newline behind it follows. -/
theorem skip_of_takeStmts {first : Source} {p : Program} (parsed : first.parse = .ok p)
    {r : List Char} {stmts : List Stmt} {d : Cursor}
    (taken : TakeStmts stmts ⟨Mark.origin, first.text.toList ++ '\n' :: r⟩ d)
    (same : eraseStmts p.stmts = eraseStmts stmts) :
    d.skip = (seam first.text.toList r).skip := by
  obtain ⟨_, recognized, _⟩ := ofText_eq_ok_iff.1 (parse_eq_ok_iff.1 parsed)
  obtain ⟨c, taken₁, atEnd⟩ := takes_of_recognize recognized
  have begins : (Cursor.ofText first.text).Continues first.text.toList r
      ⟨Mark.origin, first.text.toList ++ '\n' :: r⟩ :=
    ⟨.ofText first.text, .inl ⟨rfl, rfl⟩⟩
  obtain ⟨behind, _⟩ :=
    parallel_stmts (parallel_continues _ r) p.stmts taken₁ taken same begins.skip
  rw [← behind.skip_eq (by rwa [Cursor.skip_skip]), Cursor.skip_skip]

/-- Statements that look like those of a script and are taken behind a seam lie lower. -/
theorem relocated_of_takeStmts {first second : Source} {q : Program}
    (short : first.text.utf8ByteSize + second.text.utf8ByteSize < UInt32.size)
    (parsed : second.parse = .ok q) {stmts : List Stmt} {d d' : Cursor}
    (reached : d.skip = (seam first.text.toList second.text.toList).skip)
    (taken : TakeStmts stmts d d') (same : eraseStmts q.stmts = eraseStmts stmts) :
    stmts = q.stmts.map (Stmt.relocate (Span.lower first.lineCount)) := by
  rw [← relocateStmts_eq]
  cases some : q.stmts with
  | nil =>
      rw [some] at same
      cases stmts with
      | nil => rfl
      | cons s ss => cases same
  | cons s ss =>
      rw [← some]
      have counted := lineCount_add_lt short parsed (some ▸ List.cons_ne_nil s ss)
      obtain ⟨_, recognized, _⟩ := ofText_eq_ok_iff.1 (parse_eq_ok_iff.1 parsed)
      obtain ⟨c, taken₂, _⟩ := takes_of_recognize recognized
      have begins := (lowerBy_seam counted).skip
      rw [← reached] at begins
      obtain ⟨_, moved⟩ :=
        parallel_stmts (parallel_lowerBy first.lineCount) q.stmts taken₂ taken same begins
      exact moved (Span.lower first.lineCount) fun _ _ lower => lower.1

/--
Reading is compositional: with a newline between them, two scripts are read as
one script.  It has the statements of both, their places apart, and those of the
second one lie lower by the lines of the first.
-/
theorem parse_append (name : String) {first second : Source} {p q : Program}
    (short : first.text.utf8ByteSize + second.text.utf8ByteSize < UInt32.size)
    (parsed : first.parse = .ok p) (parsed' : second.parse = .ok q) :
    ∃ read, Source.parse ⟨name, first.text ++ "\n" ++ second.text⟩ = .ok read ∧
      read.stmts.map Stmt.erase = (p.stmts ++ q.stmts).map Stmt.erase ∧
      read.stmts.drop p.stmts.length =
        q.stmts.map (Stmt.relocate (Span.lower first.lineCount)) ∧
      (q.stmts ≠ [] → first.lineCount + second.lineCount < UInt32.size) := by
  obtain ⟨wellShaped, rendered⟩ := rendered_of_parse parsed
  obtain ⟨wellShaped', rendered'⟩ := rendered_of_parse parsed'
  obtain ⟨read, joined, same⟩ :
      ∃ read, Source.parse ⟨name, first.text ++ "\n" ++ second.text⟩ = .ok read ∧
        read.erase = Program.erase ⟨p.stmts ++ q.stmts, default⟩ :=
    parse_of_rendered (wellShaped.append wellShaped' default) (rendered.append rendered' default)
  have erased : read.stmts.map Stmt.erase = (p.stmts ++ q.stmts).map Stmt.erase := by
    have stmts := congrArg Program.stmts same
    rwa [Program.erase, Program.erase, eraseStmts_eq, eraseStmts_eq] at stmts
  refine ⟨read, joined, erased, ?_, lineCount_add_lt short parsed'⟩
  -- the statements of the two scripts are taken one behind the other
  obtain ⟨_, recognized, _⟩ := ofText_eq_ok_iff.1 (parse_eq_ok_iff.1 joined)
  obtain ⟨d', taken, _⟩ := takes_of_recognize recognized
  rw [List.map_append] at erased
  obtain ⟨ss, ts, split, sameFirst, sameSecond⟩ := List.map_eq_append_iff.1 erased
  rw [split] at taken
  obtain ⟨d, takenFirst, takenSecond⟩ := takeStmts_append.1 taken
  rw [← eraseStmts_eq, ← eraseStmts_eq] at sameFirst sameSecond
  have length : p.stmts.length = ss.length := by
    have lengths := congrArg List.length sameFirst
    rw [eraseStmts_eq, eraseStmts_eq, List.length_map, List.length_map] at lengths
    exact lengths.symm
  have whole : Cursor.ofText (first.text ++ "\n" ++ second.text) =
      ⟨Mark.origin, first.text.toList ++ '\n' :: second.text.toList⟩ := by
    rw [Cursor.ofText, String.toList_append, String.toList_append, List.append_assoc]
    rfl
  rw [whole] at takenFirst
  have reached := skip_of_takeStmts parsed takenFirst sameFirst.symm
  rw [split, length, List.drop_left]
  exact relocated_of_takeStmts short parsed' reached takenSecond sameSecond.symm

/-- A script that ends with a branch that might go on, and with an open comment. -/
def openEnd : Source := ⟨"first", "if a \x7b\x7d // else"⟩

def twoLines : Source := ⟨"second", " x = 1\n + 2;"⟩

theorem parse_append_openEnd :
    ∃ p q read, openEnd.parse = .ok p ∧ twoLines.parse = .ok q ∧
      openEnd.text.utf8ByteSize + twoLines.text.utf8ByteSize < UInt32.size ∧
      Source.parse ⟨"both", openEnd.text ++ "\n" ++ twoLines.text⟩ = .ok read ∧
      read.stmts.map Stmt.erase = (p.stmts ++ q.stmts).map Stmt.erase ∧
      read.stmts.drop p.stmts.length = q.stmts.map (Stmt.relocate (Span.lower 1)) := by
  have accepted : openEnd.parse.isOk = true ∧ twoLines.parse.isOk = true := by decide +kernel
  have short : openEnd.text.utf8ByteSize + twoLines.text.utf8ByteSize < UInt32.size := by
    decide +kernel
  cases parsed : openEnd.parse with
  | error e =>
      rw [parsed] at accepted
      cases accepted.1
  | ok p =>
      cases parsed' : twoLines.parse with
      | error e =>
          rw [parsed'] at accepted
          cases accepted.2
      | ok q =>
          obtain ⟨read, joined, erased, lowered, _⟩ := parse_append "both" short parsed parsed'
          exact ⟨p, q, read, rfl, rfl, short, joined, erased, lowered⟩

end TinyScript
