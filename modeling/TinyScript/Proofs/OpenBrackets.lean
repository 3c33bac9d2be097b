import TinyScript.Proofs.ReadingLayout

/-!
# Open brackets

The count of brackets in front of reading and the layout of a program agree.
Between two places of a text the count goes over the brackets of the parts that
lie there, each of which opens where the part begins and is closed where it
ends; nothing else is counted.  So the count stops at the first bracket at which
more parts are open than allowed, and it does not stop if there is none.
-/

namespace TinyScript

mutual

def Layout.brackets : Layout → List Extent
  | .node part extent inner =>
      if part.brackets?.isSome then extent :: bracketsOf inner else bracketsOf inner

def bracketsOf : List Layout → List Extent
  | [] => []
  | l :: ls => l.brackets ++ bracketsOf ls

end

/-- How many of the regions are open at an offset: begun, and not yet ended. -/
def openAt (es : List Extent) (offset : Nat) : Nat :=
  es.countP fun e => e.start ≤ offset && offset < e.stop

@[simp]
theorem openAt_append (es es' : List Extent) (offset : Nat) :
    openAt (es ++ es') offset = openAt es offset + openAt es' offset := List.countP_append

theorem openAt_eq_zero {es : List Extent} {offset : Nat}
    (apart : ∀ e ∈ es, offset < e.start ∨ e.stop ≤ offset) : openAt es offset = 0 := by
  apply List.countP_eq_zero.2
  intro e mem
  have beside := apart e mem
  simp only [Bool.and_eq_true, decide_eq_true_eq]
  omega

theorem openAt_cons_of_mem {e : Extent} {offset : Nat} (begun : e.start ≤ offset)
    (lasts : offset < e.stop) (es : List Extent) : openAt (e :: es) offset = openAt es offset + 1 :=
  List.countP_cons_of_pos (by simp [begun, lasts])

/-- Of the regions that are open somewhere, the last to begin has all of them open. -/
theorem exists_openAt_le {es : List Extent} {offset : Nat} (some : openAt es offset ≠ 0) :
    ∃ e ∈ es, openAt es offset ≤ openAt es e.start := by
  let starts := (es.filter fun e => e.start ≤ offset && offset < e.stop).map Extent.start
  cases latest : starts.max? with
  | none =>
      rw [List.max?_eq_none_iff, List.map_eq_nil_iff, List.filter_eq_nil_iff] at latest
      exact absurd (List.countP_eq_zero.2 latest) some
  | some start =>
      obtain ⟨listed, most⟩ := List.max?_eq_some_iff.1 latest
      obtain ⟨e, chosen, rfl⟩ := List.mem_map.1 listed
      obtain ⟨mem, covers⟩ := List.mem_filter.1 chosen
      refine ⟨e, mem, List.countP_mono_left fun e' mem' covers' => ?_⟩
      have before := most e'.start (List.mem_map_of_mem (List.mem_filter.2 ⟨mem', covers'⟩))
      simp only [Bool.and_eq_true, decide_eq_true_eq] at covers covers' ⊢
      omega

namespace Nesting

/-- The count from a place on, with some brackets open. -/
def scan (c : Cursor) (depth : Nat) : Option Mark := tooDeepFrom? .code depth c.mark c.rest

/-- More regions are open where a region begins than allowed, if `depth` are open around them. -/
def Deep (depth : Nat) (es : List Extent) (e : Extent) : Prop :=
  maxOpen < depth + openAt es e.start

/--
From one place of a text to another, the count goes over the brackets of these
regions: it goes on behind them if none of them is too deep, and otherwise stops
where the first of those begins that are.
-/
structure Counts (text : List Char) (c c' : Cursor) (es : List Extent) : Prop where
  ordered : c.mark.offset ≤ c'.mark.offset
  inside : ∀ e ∈ es, c.mark.offset ≤ e.start ∧ e.start < e.stop ∧ e.stop ≤ c'.mark.offset
  goesOn : ∀ depth, (∀ e ∈ es, ¬ Deep depth es e) → scan c depth = scan c' depth
  stops : ∀ depth, depth ≤ maxOpen → ∀ e ∈ es, Deep depth es e →
    (∀ e' ∈ es, e'.start < e.start → ¬ Deep depth es e') →
    ∃ c₁ : Cursor, c₁.Within text ∧ c₁.mark.offset = e.start ∧ scan c depth = some c₁.mark

namespace Counts

variable {text : List Char} {c c₁ c₂ c' : Cursor} {es es' : List Extent}

/-- Regions one behind the other are counted one behind the other. -/
theorem append (first : Counts text c c₁ es) (second : Counts text c₁ c' es') :
    Counts text c c' (es ++ es') := by
  -- where a region of the one list begins, none of the other list is open
  have atFirst (depth : Nat) (e : Extent) (mem : e ∈ es) :
      Deep depth (es ++ es') e ↔ Deep depth es e := by
    have none : openAt es' e.start = 0 := openAt_eq_zero fun e' mem' => by
      have before := first.inside e mem
      have behind := second.inside e' mem'
      omega
    rw [Deep, openAt_append, none, Nat.add_zero, Deep]
  have atSecond (depth : Nat) (e : Extent) (mem : e ∈ es') :
      Deep depth (es ++ es') e ↔ Deep depth es' e := by
    have none : openAt es e.start = 0 := openAt_eq_zero fun e' mem' => by
      have before := first.inside e' mem'
      have behind := second.inside e mem
      omega
    rw [Deep, openAt_append, none, Nat.zero_add, Deep]
  have goesOn (depth : Nat) (shallow : ∀ e ∈ es, ¬ Deep depth (es ++ es') e) :
      scan c depth = scan c₁ depth :=
    first.goesOn depth fun e mem deep => shallow e mem ((atFirst depth e mem).2 deep)
  refine ⟨first.ordered.trans second.ordered, ?_, fun depth shallow => ?_,
    fun depth low e mem deep before => ?_⟩
  · intro e mem
    rcases List.mem_append.1 mem with mem | mem
    · obtain ⟨low, visible, high⟩ := first.inside e mem
      exact ⟨low, visible, high.trans second.ordered⟩
    · obtain ⟨low, visible, high⟩ := second.inside e mem
      exact ⟨first.ordered.trans low, visible, high⟩
  · rw [List.forall_mem_append] at shallow
    rw [goesOn depth shallow.1]
    exact second.goesOn depth fun e mem deep => shallow.2 e mem ((atSecond depth e mem).2 deep)
  · rw [List.forall_mem_append] at before
    rcases List.mem_append.1 mem with mem | mem
    · refine first.stops depth low e mem ((atFirst depth e mem).1 deep) ?_
      exact fun e' mem' earlier deep' =>
        before.1 e' mem' earlier ((atFirst depth e' mem').2 deep')
    · rw [goesOn depth fun e' mem' => before.1 e' mem' ?_]
      · refine second.stops depth low e mem ((atSecond depth e mem).1 deep) ?_
        exact fun e' mem' earlier deep' =>
          before.2 e' mem' earlier ((atSecond depth e' mem').2 deep')
      · have low := first.inside e' mem'
        have high := second.inside e mem
        omega

/-- A region in brackets is counted around those inside of it. -/
theorem bracketed {x y : Char} (opening : x = '(' ∨ x = '\x7b') (closing : y = ')' ∨ y = '\x7d')
    (within : c.Within text) (opened : c.Leads [x] c₁) (inner : Counts text c₁ c₂ es)
    (shut : c₂.Leads [y] c') :
    Counts text c c' (⟨c.mark.offset, c'.mark.offset⟩ :: es) := by
  have size : c₁.mark.offset = c.mark.offset + 1 := by
    rw [opened.2, Mark.offset_advance]
    rcases opening with rfl | rfl <;> rfl
  have size' : c'.mark.offset = c₂.mark.offset + 1 := by
    rw [shut.2, Mark.offset_advance]
    rcases closing with rfl | rfl <;> rfl
  have ordered := inner.ordered
  -- the region itself is open at its own bracket and at those inside
  have atStart (depth : Nat) : Deep depth (⟨c.mark.offset, c'.mark.offset⟩ :: es)
      ⟨c.mark.offset, c'.mark.offset⟩ ↔ maxOpen < depth + 1 := by
    have none : openAt es c.mark.offset = 0 := openAt_eq_zero fun e mem => by
      have behind := inner.inside e mem
      omega
    rw [Deep, openAt_cons_of_mem (Nat.le_refl _) (by dsimp only; omega), none]
  have atInner (depth : Nat) (e : Extent) (mem : e ∈ es) :
      Deep depth (⟨c.mark.offset, c'.mark.offset⟩ :: es) e ↔ Deep (depth + 1) es e := by
    have lies := inner.inside e mem
    rw [Deep, openAt_cons_of_mem (by dsimp only; omega) (by dsimp only; omega), Deep]
    omega
  have enters (depth : Nat) (room : ¬ maxOpen < depth + 1) :
      scan c depth = scan c₁ (depth + 1) := by
    rw [scan, opened.1, List.singleton_append, scan_opening opening, if_neg room, scan, opened.2]
    rfl
  have leaves (depth : Nat) : scan c₂ (depth + 1) = scan c' depth := by
    rw [scan, shut.1, List.singleton_append, scan_closing closing, Nat.add_sub_cancel, scan, shut.2]
    rfl
  refine ⟨by omega, List.forall_mem_cons.2 ⟨?_, fun e mem => ?_⟩, fun depth shallow => ?_,
    fun depth low e mem deep before => ?_⟩
  · dsimp only
    omega
  · have lies := inner.inside e mem
    omega
  · rw [List.forall_mem_cons, atStart] at shallow
    rw [enters depth shallow.1, ← leaves depth]
    exact inner.goesOn (depth + 1) fun e mem deep => shallow.2 e mem ((atInner depth e mem).2 deep)
  · rw [List.forall_mem_cons, atStart] at before
    rcases List.mem_cons.1 mem with rfl | mem
    · refine ⟨c, within, rfl, ?_⟩
      rw [scan, opened.1, List.singleton_append, scan_opening opening,
        if_pos ((atStart depth).1 deep)]
    · have lies := inner.inside e mem
      have room := before.1 (by dsimp only; omega)
      rw [enters depth room]
      refine inner.stops (depth + 1) (Nat.not_lt.1 room) e mem ((atInner depth e mem).1 deep) ?_
      exact fun e' mem' earlier deep' =>
        before.2 e' mem' earlier ((atInner depth e' mem').2 deep')

end Counts

/-! ## The count over a layout -/

theorem scan_plain {atEnd : Bool} {u s : List Char} (plain : Plain atEnd u)
    (last : atEnd = true → s = []) (depth : Nat) (mark : Mark) :
    tooDeepFrom? .code depth mark (u ++ s) = tooDeepFrom? .code depth (mark.advance u) s := by
  induction plain generalizing mark with
  | trivia gap => exact scan_trivia gap last depth mark
  | @token t w u gap lexical notOpen notClose rest ih =>
      have complete : false = true → t.text ++ (u ++ s) = [] := fun impossible => nomatch impossible
      rw [List.append_assoc, List.append_assoc, scan_trivia gap complete,
        passes_token lexical notOpen notClose, ih, Mark.advance_append, Mark.advance_append]

/-- A place of a text is determined by its offset. -/
theorem within_split {text front rest : List Char} {c : Cursor} (within : c.Within text)
    (split : text = front ++ rest) (offset : c.mark.offset = utf8Length front) :
    c = ⟨Mark.origin.advance front, rest⟩ := by
  obtain ⟨mark, ahead⟩ := c
  obtain ⟨front', split', marked⟩ := within
  dsimp only at split' marked offset
  subst marked
  rw [Mark.offset_advance, Mark.origin, Nat.zero_add] at offset
  obtain ⟨rfl, rfl⟩ := append_inj_of_utf8Length (split'.symm.trans split) offset
  rfl

def Counted (text : List Char) (start stop : Nat) (es : List Extent) : Prop :=
  ∀ c : Cursor, c.Within text → c.mark.offset = start →
    ∃ c' : Cursor, c'.Within text ∧ c'.mark.offset = stop ∧ Counts text c c' es

section

variable {text : List Char} {start middle stop : Nat}

theorem Counted.append {es es' : List Extent} (first : Counted text start middle es)
    (second : Counted text middle stop es') : Counted text start stop (es ++ es') := by
  intro c within offset
  obtain ⟨c₁, within₁, offset₁, counts⟩ := first c within offset
  obtain ⟨c', within', offset', counts'⟩ := second c₁ within₁ offset₁
  exact ⟨c', within', offset', counts.append counts'⟩

theorem counted_gap (gap : Gap text start stop) : Counted text start stop [] := by
  obtain ⟨front, chars, back, split, rfl, rfl, plain⟩ := gap
  intro c within offset
  have place := within_split within (by rw [split, List.append_assoc]) offset
  subst place
  let c' : Cursor := ⟨Mark.origin.advance (front ++ chars), back⟩
  have reached : c'.mark.offset = utf8Length front + utf8Length chars := by
    rw [Mark.offset_advance, utf8Length_append]
    exact Nat.zero_add _
  refine ⟨c', ⟨front ++ chars, split, rfl⟩, reached, ?_⟩
  refine ⟨by omega, List.forall_mem_nil _, fun depth _ => ?_, fun _ _ _ mem => nomatch mem⟩
  rw [scan, scan_plain plain (fun atEnd => List.isEmpty_iff.1 atEnd), ← Mark.advance_append]
  rfl

/-- A region that begins and ends with brackets is counted around those inside of it. -/
theorem counted_bracketed {x y : Char} (opening : x = '(' ∨ x = '\x7b')
    (closing : y = ')' ∨ y = '\x7d') {between : List Char} {es : List Extent}
    (cuts : Cuts text start stop (x :: (between ++ [y])))
    (inner : Counted text (start + 1) (stop - 1) es) :
    Counted text start stop (⟨start, stop⟩ :: es) := by
  obtain ⟨front, back, split, rfl, rfl⟩ := cuts
  have size : utf8Length [x] = 1 := by rcases opening with rfl | rfl <;> rfl
  have size' : utf8Length [y] = 1 := by rcases closing with rfl | rfl <;> rfl
  have total : utf8Length (x :: (between ++ [y])) = utf8Length between + 2 := by
    rw [← List.singleton_append, utf8Length_append, utf8Length_append, size, size']
    omega
  intro c within offset
  have place := within_split within (by rw [split, List.append_assoc]) offset
  subst place
  let c₁ : Cursor := ⟨Mark.origin.advance (front ++ [x]), between ++ y :: back⟩
  have within₁ : c₁.Within text := ⟨front ++ [x], by simp [c₁, split], rfl⟩
  have offset₁ : c₁.mark.offset = utf8Length front + 1 := by
    rw [Mark.offset_advance, utf8Length_append, size]
    exact Nat.zero_add _
  obtain ⟨c₂, within₂, offset₂, counts⟩ := inner c₁ within₁ offset₁
  have place₂ : c₂ = ⟨Mark.origin.advance (front ++ [x] ++ between), y :: back⟩ := by
    apply within_split within₂
    · simp [split]
    · rw [offset₂, total, utf8Length_append, utf8Length_append, size]
      omega
  subst place₂
  let c' : Cursor := ⟨Mark.origin.advance (front ++ x :: (between ++ [y])), back⟩
  have offset' : c'.mark.offset = utf8Length front + utf8Length (x :: (between ++ [y])) := by
    rw [Mark.offset_advance, utf8Length_append]
    exact Nat.zero_add _
  have opened : Cursor.Leads ⟨Mark.origin.advance front, x :: (between ++ [y]) ++ back⟩ [x] c₁ :=
    ⟨by simp [c₁], by rw [← Mark.advance_append]⟩
  have shut : Cursor.Leads ⟨Mark.origin.advance (front ++ [x] ++ between), y :: back⟩ [y] c' :=
    ⟨rfl, by rw [← Mark.advance_append]; simp [c']⟩
  have whole := Counts.bracketed opening closing within opened counts shut
  rw [offset, offset'] at whole
  exact ⟨c', ⟨_, split, rfl⟩, offset', whole⟩

/-- Between the layouts that are strewn over a region there is nothing to count. -/
theorem counted_strewn {ls : List Layout} (strewn : Strewn text start (ls.map Layout.extent) stop)
    (each : ∀ l ∈ ls, Counted text l.extent.start l.extent.stop l.brackets) :
    Counted text start stop (bracketsOf ls) := by
  induction ls generalizing start with
  | nil =>
      cases strewn with
      | gap none => exact counted_gap none
  | cons l ls ih =>
      rw [List.forall_mem_cons] at each
      cases strewn with
      | next none ordered others =>
          exact (counted_gap none).append (each.1.append (ih others each.2))

/-- In a sound layout every part in brackets is counted, and nothing else. -/
theorem counted_layout {l : Layout} (sound : l.Sound text) :
    Counted text l.extent.start l.extent.stop l.brackets := by
  induction sound with
  | @node part extent inner fits inside ih =>
      have filled := counted_strewn fits.filled ih
      rw [Layout.extent, Layout.brackets]
      cases brackets : part.brackets? with
      | none =>
          rw [Part.margin, brackets] at filled
          exact filled
      | some pair =>
          obtain ⟨x, y⟩ := pair
          obtain ⟨⟨opening, closing⟩, _, spelled⟩ := part.of_brackets brackets
          obtain ⟨chars, cuts, written⟩ := fits.spelled
          obtain ⟨between, rfl⟩ := (spelled chars).1 written
          rw [Part.margin, brackets] at filled
          exact counted_bracketed opening closing cuts filled

end

/-- The first bracket of a text, in its order, at which more are open than allowed. -/
structure FirstDeep (es : List Extent) (e : Extent) : Prop where
  mem : e ∈ es
  deep : maxOpen < openAt es e.start
  first : ∀ e' ∈ es, maxOpen < openAt es e'.start → e.start ≤ e'.start

/-- If a bracket is too deep, there is a first one. -/
theorem exists_firstDeep {es : List Extent} {e : Extent} (mem : e ∈ es)
    (deep : maxOpen < openAt es e.start) : ∃ e, FirstDeep es e := by
  let starts := (es.filter fun e => maxOpen < openAt es e.start).map Extent.start
  cases least : starts.min? with
  | none =>
      rw [List.min?_eq_none_iff, List.map_eq_nil_iff, List.filter_eq_nil_iff] at least
      exact absurd (decide_eq_true deep) (least e mem)
  | some start =>
      obtain ⟨listed, least⟩ := List.min?_eq_some_iff.1 least
      obtain ⟨e, chosen, rfl⟩ := List.mem_map.1 listed
      obtain ⟨mem, deep⟩ := List.mem_filter.1 chosen
      refine ⟨e, mem, of_decide_eq_true deep, fun e' mem' deep' => least e'.start ?_⟩
      exact List.mem_map_of_mem (List.mem_filter.2 ⟨mem', decide_eq_true deep'⟩)

/-- The count over a whole text stops at the first bracket that is too deep, if there is one. -/
theorem tooDeep_of_layout {layout : Layout} {program : Program} {text : List Char}
    (laidOut : layout.Of program text) :
    (tooDeep? text = none ∧ ∀ e ∈ layout.brackets, openAt layout.brackets e.start ≤ maxOpen) ∨
      ∃ e, FirstDeep layout.brackets e ∧ ∃ c : Cursor, c.Within text ∧ c.mark.offset = e.start ∧
        tooDeep? text = some c.mark := by
  have begins : Cursor.Within text ⟨Mark.origin, text⟩ := ⟨[], rfl, rfl⟩
  have counted := counted_layout laidOut.sound
  rw [laidOut.whole] at counted
  obtain ⟨c', within, offset, counts⟩ := counted ⟨Mark.origin, text⟩ begins rfl
  have ending := within_split within (List.append_nil text).symm offset
  by_cases shallow : ∀ e ∈ layout.brackets, openAt layout.brackets e.start ≤ maxOpen
  · refine .inl ⟨?_, shallow⟩
    have goesOn := counts.goesOn 0 fun e mem deep => by
      rw [Deep, Nat.zero_add] at deep
      exact absurd (shallow e mem) (Nat.not_le.2 deep)
    rw [ending] at goesOn
    exact goesOn
  · simp only [not_forall, Nat.not_le] at shallow
    obtain ⟨e, mem, deep⟩ := shallow
    obtain ⟨e, first⟩ := exists_firstDeep mem deep
    refine .inr ⟨e, first, ?_⟩
    obtain ⟨c, place, start, stops⟩ := counts.stops 0 (Nat.zero_le _) e first.mem
      (by rw [Deep, Nat.zero_add]; exact first.deep) fun e' mem' earlier deep' => by
        rw [Deep, Nat.zero_add] at deep'
        exact absurd (first.first e' mem' deep') (Nat.not_le.2 earlier)
    exact ⟨c, place, start, stops⟩

end Nesting

/-- A text whose brackets nest too deep is refused at the bracket that the count gives. -/
theorem parse_of_tooDeep {source : Source} {mark : Mark}
    (deep : Nesting.tooDeep? source.text.toList = some mark) :
    source.parse =
      .error (.report source (Fault.nesting mark).message (.point mark.position)) := by
  unfold Source.parse Program.ofText
  rw [deep]
  rfl

/--
The count in front of reading agrees with the grammar.  A text that the grammar
matches has a layout, and in any layout of it: the count accepts the text if and
only if nowhere more than `maxOpen` blocks, parentheses and lists of arguments
are open; otherwise the text is refused at the first bracket where more are.
-/
theorem nesting_agrees {source : Source} {program : Program}
    (recognized : recognize source.text = .ok program) :
    (∃ layout : Layout, layout.Of program source.text.toList) ∧
      ∀ layout : Layout, layout.Of program source.text.toList →
        (Nesting.tooDeep? source.text.toList = none ↔
          ∀ offset, openAt layout.brackets offset ≤ Nesting.maxOpen) ∧
        ∀ mark, Nesting.tooDeep? source.text.toList = some mark →
          ∃ e, Nesting.FirstDeep layout.brackets e ∧ mark.offset = e.start ∧
            source.parse = .error (.report source (Fault.nesting mark).message
              (.point (source.position e.start))) := by
  obtain ⟨layout, laidOut, _⟩ := exists_layout recognized
  refine ⟨⟨layout, laidOut⟩, fun layout laidOut => ?_⟩
  rcases Nesting.tooDeep_of_layout laidOut with ⟨none, shallow⟩ | ⟨e, first, c, place, start, some⟩
  · refine ⟨iff_of_true none fun offset => ?_, fun mark some => ?_⟩
    · by_cases somewhere : openAt layout.brackets offset = 0
      · omega
      · obtain ⟨e, mem, le⟩ := exists_openAt_le somewhere
        exact le.trans (shallow e mem)
    · rw [none] at some
      cases some
  · refine ⟨iff_of_false (by simp [some]) fun shallow => ?_, fun mark found => ?_⟩
    · exact absurd (shallow e.start) (Nat.not_le.2 first.deep)
    · rw [some] at found
      cases found
      refine ⟨e, first, start, ?_⟩
      rw [parse_of_tooDeep some, place.position, start]

/-- One bracket too many, behind brackets in quotation marks and in a comment. -/
def deepParens : Source :=
  ⟨"deep", "s = '(\"// \x7b\n'; // \"((\nx = " ++ String.ofList (List.replicate 65 '(') ++
    "1" ++ String.ofList (List.replicate 65 ')') ++ ";"⟩

/-- The sixty-fifth bracket of the expression is the first that is too deep. -/
theorem nesting_agrees_deepParens :
    ∃ (program : Program) (layout : Layout) (e : Extent),
      recognize deepParens.text = .ok program ∧ layout.Of program deepParens.text.toList ∧
      Nesting.FirstDeep layout.brackets e ∧ e.start = 90 := by
  have accepted : (recognize deepParens.text).isOk = true := by decide +kernel
  have deep : (Nesting.tooDeep? deepParens.text.toList).map Mark.offset = some 90 := by
    decide +kernel
  cases recognized : recognize deepParens.text with
  | error e =>
      rw [recognized] at accepted
      cases accepted
  | ok program =>
      obtain ⟨⟨layout, laidOut⟩, agrees⟩ := nesting_agrees recognized
      obtain ⟨mark, found, offset⟩ := Option.map_eq_some_iff.1 deep
      obtain ⟨e, first, start, _⟩ := (agrees layout laidOut).2 mark found
      exact ⟨program, layout, e, rfl, laidOut, first, start.symm.trans offset⟩

end TinyScript
