import TinyScript.Proofs.Layout
import TinyScript.Proofs.Tracing

/-!
# Parts between cursors

A rule of the grammar takes the characters from the cursor at which it begins
to the one at which it ends, and the parts that it reads on the way lie between
the two.  An operator and its operands are the exception: they are joined after
all of them are read, and take the smallest region that holds the operands.
-/

namespace TinyScript

namespace Cursor.Within

variable {text : List Char} {c c' : Cursor}

theorem split (within : c.Within text) :
    ∃ front, text = front ++ c.rest ∧ c.mark.offset = utf8Length front ∧
      c.mark.position = (Mark.origin.advance front).position := by
  obtain ⟨front, split, marked⟩ := within
  refine ⟨front, split, ?_, by rw [marked]⟩
  rw [marked, Mark.offset_advance]
  exact Nat.zero_add _

theorem position {source : Source} (within : c.Within source.text.toList) :
    c.mark.position = source.position c.mark.offset := by
  obtain ⟨front, split, offset, position⟩ := within.split
  rw [offset, position, source.position_of_split split]

/-- The characters between two cursors are cut out of the text by their offsets. -/
theorem cuts (within : c.Within text) {w : List Char} (leads : c.Leads w c') :
    Cuts text c.mark.offset c'.mark.offset w := by
  obtain ⟨front, split, offset, _⟩ := within.split
  refine ⟨front, c'.rest, ?_, offset, ?_⟩
  · rw [split, leads.1, List.append_assoc]
  · rw [leads.2, Mark.offset_advance, offset]

/-- Plain characters between two cursors are a gap. -/
theorem gap (within : c.Within text) {w : List Char} (leads : c.Leads w c')
    (plain : Plain c'.rest.isEmpty w) : Gap text c.mark.offset c'.mark.offset := by
  obtain ⟨front, split, offset, _⟩ := within.split
  refine ⟨front, w, c'.rest, ?_, offset, ?_, plain⟩
  · rw [split, leads.1, List.append_assoc]
  · rw [leads.2, Mark.offset_advance, offset]

/-- The offset of a cursor with something ahead is not the end of the text. -/
theorem offset_lt (within : c.Within text) (ahead : c.rest ≠ []) :
    c.mark.offset < utf8Length text := by
  obtain ⟨front, split, offset, _⟩ := within.split
  have some := List.length_pos_iff.2 ahead
  have bytes := length_le_utf8Length c.rest
  rw [split, offset, utf8Length_append]
  omega

end Cursor.Within

theorem Cursor.Leads.trans {c c₁ c' : Cursor} {u v : List Char} (first : c.Leads u c₁)
    (second : c₁.Leads v c') : c.Leads (u ++ v) c' := by
  constructor
  · rw [first.1, second.1, List.append_assoc]
  · rw [second.2, first.2, Mark.advance_append]

/-- Only one run of characters leads from a cursor to another. -/
theorem Cursor.Leads.unique {c c' : Cursor} {u v : List Char} (first : c.Leads u c')
    (second : c.Leads v c') : u = v :=
  List.append_cancel_right (first.1.symm.trans second.1)

/--
Layouts of these parts lie between two cursors.  Their spans are right if the
text is not too long and, unless the parts are closed, it goes on behind them:
the end of the text may have a column that is not counted within 32 bits.
-/
structure Spread (source : Source) (closed : Bool) (c c' : Cursor) (parts : List Part) :
    Prop where
  leads : ∃ w, c.Leads w c'
  laid : c.Within source.text.toList → ∃ ls : List Layout, ls.map Layout.part = parts ∧
    (∀ l ∈ ls, l.Sound source.text.toList) ∧
    Strewn source.text.toList c.mark.offset (ls.map Layout.extent) c'.mark.offset ∧
    (source.text.utf8ByteSize < UInt32.size → closed = true ∨ c'.rest ≠ [] →
      ∀ l ∈ ls, l.Spans source)

/-- The parts inside of a region are placed rightly if they are strewn over it. -/
theorem Fits.of_filled {text : List Char} {part : Part} {extent : Extent} {inner : List Layout}
    (parts : inner.map Layout.part = part.inner)
    (spelled : ∃ chars, Cuts text extent.start extent.stop chars ∧ part.Spelled chars)
    (smallest : part.isBinary = true →
      ∀ other, (∀ l ∈ inner, l.extent.Inside other) → extent.Inside other)
    (filled : Strewn text (extent.start + part.margin) (inner.map Layout.extent)
      (extent.stop - part.margin)) : Fits text part extent inner where
  parts := parts
  spelled := spelled
  smallest := smallest
  filled := filled
  within l mem := by
    obtain ⟨⟨low, high⟩, _⟩ := filled.inside l.extent (List.mem_map_of_mem mem)
    dsimp only at low high
    constructor <;> omega
  disjoint := List.pairwise_map.1 filled.pairwise

namespace Spread

variable {source : Source} {closed : Bool} {c c₁ c₂ c' : Cursor} {parts others : List Part}

theorem ahead (spread : Spread source closed c c' parts) (some : c'.rest ≠ []) : c.rest ≠ [] := by
  obtain ⟨w, leads, _⟩ := spread.leads
  intro empty
  rw [empty] at leads
  exact some (List.append_eq_nil_iff.1 leads.symm).2

theorem gap {w : List Char} (leads : c.Leads w c') (plain : Plain c'.rest.isEmpty w) :
    Spread source closed c c' [] where
  leads := ⟨w, leads⟩
  laid within := ⟨[], rfl, List.forall_mem_nil _, .gap (within.gap leads plain),
    fun _ _ => List.forall_mem_nil _⟩

theorem refl (c : Cursor) : Spread source closed c c [] :=
  gap ⟨rfl, rfl⟩ (.trivia .nil)

theorem skip (c : Cursor) : Spread source closed c c.skip [] := by
  obtain ⟨u, leads⟩ := c.leads_skip
  obtain ⟨w, split, trivia⟩ := c.skip_splits
  have same : u = w := List.append_cancel_right (leads.1.symm.trans split)
  subst same
  exact gap leads (.trivia trivia)

theorem trans (first : Spread source closed c c₁ parts)
    (second : Spread source closed c₁ c' others) :
    Spread source closed c c' (parts ++ others) := by
  obtain ⟨u, leads⟩ := first.leads
  obtain ⟨v, leads'⟩ := second.leads
  refine ⟨⟨u ++ v, leads.trans leads'⟩, fun within => ?_⟩
  obtain ⟨ls, rfl, sound, strewn, spans⟩ := first.laid within
  obtain ⟨ls', rfl, sound', strewn', spans'⟩ := second.laid (within.behind leads)
  refine ⟨ls ++ ls', List.map_append, List.forall_mem_append.2 ⟨sound, sound'⟩, ?_, ?_⟩
  · rw [List.map_append]
    exact strewn.append strewn'
  · intro short settled
    refine List.forall_mem_append.2 ⟨spans short ?_, spans' short settled⟩
    exact settled.imp_right second.ahead

theorem append (first : Spread source closed c c₁ parts)
    (second : Spread source closed c₁.skip c' others) :
    Spread source closed c c' (parts ++ others) :=
  first.trans ((skip c₁).trans second)

theorem close (spread : Spread source false c c' parts) (some : c'.rest ≠ []) :
    Spread source closed c c' parts where
  leads := spread.leads
  laid within := by
    obtain ⟨ls, same, sound, strewn, spans⟩ := spread.laid within
    exact ⟨ls, same, sound, strewn, fun short _ => spans short (.inr some)⟩

theorem of_fits {part : Part} {w : List Char} (leads : c.Leads w c')
    (span : ∀ span ∈ part.span?, span = c.mark.spanTo c'.mark)
    (laid : c.Within source.text.toList → ∃ ls : List Layout,
      Fits source.text.toList part ⟨c.mark.offset, c'.mark.offset⟩ ls ∧
      (∀ l ∈ ls, l.Sound source.text.toList) ∧
      (source.text.utf8ByteSize < UInt32.size → closed = true ∨ c'.rest ≠ [] →
        ∀ l ∈ ls, l.Spans source)) : Spread source closed c c' [part] where
  leads := ⟨w, leads⟩
  laid within := by
    obtain ⟨ls, fits, sound, spans⟩ := laid within
    refine ⟨[.node part ⟨c.mark.offset, c'.mark.offset⟩ ls], rfl,
      List.forall_mem_singleton.2 (.node fits sound), .single (within.cuts leads), ?_⟩
    intro short settled
    refine List.forall_mem_singleton.2 (.node (fun s mem => ?_) (spans short settled))
    rw [span s mem, Mark.spanTo, Source.span, within.position, (within.behind leads).position]

/-- A part without brackets takes the characters in which the parts inside of it were found. -/
theorem node {part : Part} (spread : Spread source closed c c' part.inner)
    (unbracketed : part.brackets? = none) (single : part.isBinary = false)
    (spelled : ∀ w, c.Leads w c' → part.Spelled w)
    (span : ∀ span ∈ part.span?, span = c.mark.spanTo c'.mark) :
    Spread source closed c c' [part] := by
  obtain ⟨w, leads⟩ := spread.leads
  apply of_fits leads span
  intro within
  obtain ⟨ls, same, sound, strewn, spans⟩ := spread.laid within
  have margin : part.margin = 0 := by rw [Part.margin, unbracketed]; rfl
  refine ⟨ls, .of_filled same ⟨w, within.cuts leads, spelled w leads⟩ (fun binary => ?_) ?_,
    sound, spans⟩
  · rw [single] at binary
    cases binary
  · rw [margin]
    exact strewn

/-- A part in brackets takes its brackets and what was found between them. -/
theorem bracketed {part : Part} {x y : Char} (brackets : part.brackets? = some (x, y))
    (opened : c.Leads [x] c₁) (spread : Spread source false c₁ c₂ part.inner)
    (shut : c₂.Leads [y] c') (span : ∀ span ∈ part.span?, span = c.mark.spanTo c'.mark) :
    Spread source closed c c' [part] := by
  obtain ⟨⟨opening, closing⟩, single, spelled⟩ := part.of_brackets brackets
  have size : x.utf8Size = 1 := by rcases opening with rfl | rfl <;> rfl
  have size' : y.utf8Size = 1 := by rcases closing with rfl | rfl <;> rfl
  obtain ⟨w, leads⟩ := spread.leads
  have whole : c.Leads (x :: (w ++ [y])) c' := opened.trans (leads.trans shut)
  have margin : part.margin = 1 := by rw [Part.margin, brackets]; rfl
  have start : c₁.mark.offset = c.mark.offset + part.margin := by
    rw [opened.2, Mark.offset_advance, margin, utf8Length_cons, size, utf8Length_nil]
  have stop : c₂.mark.offset = c'.mark.offset - part.margin := by
    rw [shut.2, Mark.offset_advance, margin, utf8Length_cons, size', utf8Length_nil]
    omega
  have behind : c₂.rest ≠ [] := by
    rw [shut.1]
    exact List.cons_ne_nil _ _
  apply of_fits whole span
  intro within
  obtain ⟨ls, same, sound, strewn, spans⟩ := spread.laid (within.behind opened)
  have written : part.Spelled (x :: (w ++ [y])) := (spelled _).2 ⟨w, rfl⟩
  refine ⟨ls, .of_filled same ⟨_, within.cuts whole, written⟩ (fun binary => ?_) ?_, sound,
    fun short _ => spans short (.inr behind)⟩
  · rw [single] at binary
    cases binary
  · rw [start, stop] at strewn
    exact strewn

end Spread

/-- An operator with its operands, whatever the kind of its node. -/
theorem Part.of_binary (left : Expr) (op : BinOp) (right : Expr) :
    (Part.expr (.binary left op right)).inner = [.expr left, .expr right] ∧
      (Part.expr (.binary left op right)).margin = 0 ∧
      (Expr.binary left op right).span = left.span.merge right.span ∧
      ∀ chars, (Part.expr (.binary left op right)).Spelled chars := by
  unfold Expr.binary
  dsimp only
  split <;> exact ⟨rfl, rfl, rfl, fun _ _ none => nomatch none⟩

theorem Source.position_mono {source : Source} (short : source.text.utf8ByteSize < UInt32.size)
    {a b : Nat} (low : Gap source.text.toList a a) (high : Gap source.text.toList b b)
    (ordered : a ≤ b) (inside : b < utf8Length source.text.toList) :
    source.position a ≤ source.position b := by
  obtain ⟨front, _, rest, split, rfl, _⟩ := low
  obtain ⟨front', w, rest', split', rfl, size, _⟩ := high
  rw [List.append_assoc] at split split'
  refine source.position_le short split split' ordered ?_
  intro empty
  rw [split', empty, List.append_nil] at inside
  exact Nat.lt_irrefl _ inside

/-- The smallest span over two regions, one behind the other, reaches over both. -/
theorem Source.span_merge {source : Source} (short : source.text.utf8ByteSize < UInt32.size)
    {a b : Extent} (strewn : Strewn source.text.toList a.start [a, b] b.stop)
    (inside : b.stop < utf8Length source.text.toList) :
    (source.span a.start a.stop).merge (source.span b.start b.stop) =
      source.span a.start b.stop := by
  cases strewn with
  | next none ordered others =>
      cases others with
      | next between ordered' ends =>
          have start := source.position_mono short none.atStop between.atStop
            (ordered.trans between.le) (Nat.lt_of_le_of_lt ordered' inside)
          have stop := source.position_mono short between.atStart ends.atStart
            (between.le.trans ordered') inside
          rw [Span.merge, Source.span, Source.span, Source.span]
          exact congrArg₂ Span.mk (if_pos start) (if_pos stop)

theorem Layout.Spans.span {source : Source} {l : Layout} (spans : l.Spans source) {e : Expr}
    (same : l.part = .expr e) : e.span = source.span l.extent.start l.extent.stop := by
  cases spans with
  | node here inside =>
      cases same
      exact here e.span rfl

/-- Two neighbouring operands may be joined by an operator. -/
theorem Spread.join {source : Source} {c c' : Cursor} {before behind : List Part}
    (left : Expr) (op : BinOp) (right : Expr)
    (spread : Spread source false c c' (before ++ .expr left :: .expr right :: behind)) :
    Spread source false c c' (before ++ .expr (.binary left op right) :: behind) where
  leads := spread.leads
  laid within := by
    obtain ⟨w, leads⟩ := spread.leads
    obtain ⟨inner, margin, merged, spelled⟩ := Part.of_binary left op right
    obtain ⟨all, parts, sound, strewn, spans⟩ := spread.laid within
    obtain ⟨ls, operands, rfl, rfl, others⟩ := List.map_eq_append_iff.1 parts
    obtain ⟨l, operands, rfl, leftPart, others⟩ := List.map_eq_cons_iff.1 others
    obtain ⟨r, rs, rfl, rightPart, rfl⟩ := List.map_eq_cons_iff.1 others
    simp only [List.forall_mem_append, List.forall_mem_cons] at sound spans
    obtain ⟨soundBefore, soundLeft, soundRight, soundBehind⟩ := sound
    rw [List.map_append, List.map_cons, List.map_cons] at strewn
    obtain ⟨joined, pair⟩ := strewn.join
    have fits : Fits source.text.toList (.expr (.binary left op right))
        ⟨l.extent.start, r.extent.stop⟩ [l, r] := by
      obtain ⟨chars, cuts⟩ := pair.cuts
      refine .of_filled ?_ ⟨chars, cuts, spelled chars⟩ (fun _ other holds => ?_) ?_
      · rw [inner, ← leftPart, ← rightPart]
        rfl
      · exact ⟨(holds l (by simp)).1, (holds r (by simp)).2⟩
      · rw [margin]
        exact pair
    refine ⟨ls ++ .node (.expr (.binary left op right)) ⟨l.extent.start, r.extent.stop⟩ [l, r] ::
      rs, by simp [Layout.part], ?_, ?_, fun short settled => ?_⟩
    · rw [List.forall_mem_append, List.forall_mem_cons]
      exact ⟨soundBefore, .node fits (by simp [soundLeft, soundRight]), soundBehind⟩
    · rw [List.map_append, List.map_cons]
      exact joined
    · obtain ⟨spansBefore, spansLeft, spansRight, spansBehind⟩ := spans short settled
      rw [List.forall_mem_append, List.forall_mem_cons]
      refine ⟨spansBefore, .node (fun span mem => ?_) (by simp [spansLeft, spansRight]),
        spansBehind⟩
      have last : r.extent.stop < utf8Length source.text.toList := by
        have reach := (joined.inside ⟨l.extent.start, r.extent.stop⟩ (by simp)).1.2
        have ahead := (within.behind leads).offset_lt (settled.resolve_left Bool.false_ne_true)
        exact Nat.lt_of_le_of_lt reach ahead
      cases mem
      rw [merged, spansLeft.span leftPart, spansRight.span rightPart,
        source.span_merge short pair last]

end TinyScript
