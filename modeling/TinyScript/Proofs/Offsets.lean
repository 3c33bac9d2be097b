import TinyScript.Proofs.Lines

/-!
# Offsets and positions

A byte offset that stands between two characters of a text has a position that
can be found in two ways: by looking it up in the line index, and by counting
lines and columns on the way to it.  Both ways agree.  Later offsets have later
positions, so the span that covers two regions of a text, one behind the other,
reaches from the beginning of the first to the end of the second.
-/

namespace TinyScript

theorem foldl_utf8Size (chars : List Char) (n : Nat) :
    chars.foldl (fun n c => n + c.utf8Size) n = n + utf8Length chars := by
  induction chars generalizing n with
  | nil => rfl
  | cons c chars ih =>
      rw [utf8Length, List.foldl_cons, List.foldl_cons, ih, ih, Nat.zero_add, Nat.add_assoc]

@[simp]
theorem utf8Length_nil : utf8Length [] = 0 := rfl

@[simp]
theorem utf8Length_cons (c : Char) (chars : List Char) :
    utf8Length (c :: chars) = c.utf8Size + utf8Length chars := by
  rw [utf8Length, List.foldl_cons, foldl_utf8Size, Nat.zero_add]

@[simp]
theorem utf8Length_append (u v : List Char) :
    utf8Length (u ++ v) = utf8Length u + utf8Length v := by
  rw [utf8Length, List.foldl_append, foldl_utf8Size]
  rfl

@[simp]
theorem utf8Length_reverse (u : List Char) : utf8Length u.reverse = utf8Length u := by
  induction u with
  | nil => rfl
  | cons c u ih =>
      rw [List.reverse_cons, utf8Length_append, ih, utf8Length_cons, utf8Length_cons,
        utf8Length_nil, Nat.add_zero, Nat.add_comm]

theorem utf8Length_toList (text : String) : utf8Length text.toList = text.utf8ByteSize := by
  rw [← String.ofList_toList (s := text)]
  generalize text.toList = chars
  rw [String.toList_ofList]
  induction chars with
  | nil => rfl
  | cons c chars ih =>
      rw [String.ofList_cons, String.utf8ByteSize_append, String.utf8ByteSize_singleton,
        utf8Length_cons, ih]

/-- Characters take a byte each at least. -/
theorem length_le_utf8Length (chars : List Char) : chars.length ≤ utf8Length chars := by
  induction chars with
  | nil => exact Nat.le_refl 0
  | cons c chars ih =>
      have positive := c.utf8Size_pos
      rw [List.length_cons, utf8Length_cons]
      omega

/-- Of two beginnings of a text the one with fewer bytes is the shorter one. -/
theorem exists_append_of_utf8Length_le {u s v t : List Char} (same : u ++ s = v ++ t)
    (le : utf8Length u ≤ utf8Length v) : ∃ w, v = u ++ w := by
  rcases List.append_eq_append_iff.1 same with ⟨w, longer, _⟩ | ⟨w, longer, _⟩
  · exact ⟨w, longer⟩
  · have none : w = [] := by
      rw [longer, utf8Length_append] at le
      have size := length_le_utf8Length w
      exact List.length_eq_zero_iff.1 (by omega)
    exact ⟨[], by rw [longer, none, List.append_nil, List.append_nil]⟩

namespace Mark

theorem advance_nil (m : Mark) : m.advance [] = m := rfl

theorem advance_cons (m : Mark) (c : Char) (chars : List Char) :
    m.advance (c :: chars) = (m.step c).advance chars := rfl

theorem advance_append (m : Mark) (u v : List Char) :
    m.advance (u ++ v) = (m.advance u).advance v := List.foldl_append

theorem offset_step (m : Mark) (c : Char) : (m.step c).offset = m.offset + c.utf8Size := by
  unfold step
  split
  · next newline =>
      subst newline
      rfl
  · rfl

/-- A mark is as many bytes further as the characters take that were passed. -/
@[simp]
theorem offset_advance (m : Mark) (chars : List Char) :
    (m.advance chars).offset = m.offset + utf8Length chars := by
  induction chars generalizing m with
  | nil => rfl
  | cons c chars ih =>
      rw [advance_cons, ih, offset_step, utf8Length_cons, Nat.add_assoc]

/-- A later place is on a later line, or on the same line in a column not before. -/
theorem line_or_column_advance (m : Mark) (chars : List Char) :
    m.line < (m.advance chars).line ∨
      m.line = (m.advance chars).line ∧ m.column ≤ (m.advance chars).column := by
  induction chars generalizing m with
  | nil => exact .inr ⟨rfl, Nat.le_refl _⟩
  | cons c chars ih =>
      have behind := ih (m.step c)
      have stepped : m.line < (m.step c).line ∨
          m.line = (m.step c).line ∧ m.column ≤ (m.step c).column := by
        unfold step
        split
        · exact .inl (Nat.lt_succ_self _)
        · exact .inr ⟨rfl, Nat.le_succ _⟩
      rw [advance_cons]
      omega

end Mark

theorem start_le_of_mem_linesFrom {start : Nat} {piece rest : List Char} {line : Line}
    (mem : line ∈ linesFrom start piece rest) : start ≤ line.start := by
  induction rest generalizing start piece with
  | nil =>
      rw [linesFrom, List.mem_singleton] at mem
      subst mem
      exact Nat.le_refl start
  | cons c rest ih =>
      unfold linesFrom at mem
      split at mem
      · rcases List.mem_cons.1 mem with rfl | mem
        · exact Nat.le_refl _
        · have later := ih mem
          omega
      · exact ih mem

/-- The lines behind the first one begin behind the piece that was collected for it. -/
theorem linesFrom_others (start : Nat) (piece rest : List Char) :
    ∃ others, linesFrom start piece rest =
        ⟨start, piece.reverse ++ rest.takeWhile (· ≠ '\n')⟩ :: others ∧
      ∀ line ∈ others, start + utf8Length piece < line.start := by
  induction rest generalizing start piece with
  | nil => exact ⟨[], by simp [linesFrom], List.forall_mem_nil _⟩
  | cons c rest ih =>
      unfold linesFrom
      split
      · next newline =>
          refine ⟨linesFrom (start + utf8Length piece + 1) [] rest, by simp [newline], ?_⟩
          intro line mem
          exact start_le_of_mem_linesFrom mem
      · next other =>
          obtain ⟨others, split, later⟩ := ih start (c :: piece)
          refine ⟨others, ?_, fun line mem => ?_⟩
          · rw [split, List.takeWhile_cons_of_pos (by simpa using other)]
            simp
          · have behind := later line mem
            rw [utf8Length_cons] at behind
            omega

/-- As many characters as a beginning has lie within its bytes. -/
theorem charsWithin?_append (u s : List Char) :
    charsWithin? (utf8Length u) (u ++ s) = some u.length := by
  induction u with
  | nil => cases s <;> rfl
  | cons c u ih =>
      have positive := c.utf8Size_pos
      rw [List.cons_append, charsWithin?, utf8Length_cons, if_neg (by omega), if_neg (by omega),
        Nat.add_sub_cancel_left, ih, List.length_cons, Option.map_some]

/--
The line index finds the line that is counted on the way to a place, and on
this line as many characters in front of the place as columns are counted.
-/
theorem linesFrom_offset (start : Nat) (piece front rest : List Char) (m : Mark)
    (column : m.column = piece.length + 1) {offset : Nat}
    (reached : offset = start + utf8Length piece + utf8Length front) :
    ∃ before line, (linesFrom start piece (front ++ rest)).takeWhile (·.start ≤ offset) =
        before ++ [line] ∧
      (m.advance front).line = m.line + before.length ∧
      (charsWithin? (offset - line.start) line.chars).map (· + 1) =
        some (m.advance front).column := by
  induction front generalizing start piece m with
  | nil =>
      obtain ⟨others, split, later⟩ := linesFrom_others start piece rest
      have stop : others.takeWhile (·.start ≤ offset) = [] := by
        cases others with
        | nil => rfl
        | cons line others =>
            have beyond := later line List.mem_cons_self
            rw [utf8Length_nil] at reached
            rw [List.takeWhile_cons_of_neg (by simp; omega)]
      refine ⟨[], ⟨start, piece.reverse ++ rest.takeWhile (· ≠ '\n')⟩, ?_, rfl, ?_⟩
      · rw [List.nil_append, split, List.takeWhile_cons_of_pos (by simp; omega), stop]
        rfl
      · have bytes : offset - start = utf8Length piece.reverse := by
          rw [utf8Length_reverse, reached, utf8Length_nil]
          omega
        rw [bytes, charsWithin?_append, List.length_reverse, Mark.advance_nil, column]
        rfl
  | cons c front ih =>
      rw [Mark.advance_cons, List.cons_append, linesFrom]
      rw [utf8Length_cons] at reached
      by_cases newline : c = '\n'
      · have stepped : m.step c = ⟨m.offset + 1, m.line + 1, 1⟩ := if_pos newline
        have size : c.utf8Size = 1 := by rw [newline]; rfl
        obtain ⟨before, line, found, counted, within⟩ :=
          ih (start + utf8Length piece + 1) [] ⟨m.offset + 1, m.line + 1, 1⟩ rfl
            (by rw [utf8Length_nil]; omega)
        refine ⟨⟨start, piece.reverse⟩ :: before, line, ?_, ?_, ?_⟩
        · rw [if_pos newline, List.takeWhile_cons_of_pos (by simp; omega), found,
            List.cons_append]
        · rw [stepped, counted, List.length_cons, Nat.add_assoc, Nat.add_comm 1]
        · rw [stepped]
          exact within
      · have stepped : m.step c = ⟨m.offset + c.utf8Size, m.line, m.column + 1⟩ := if_neg newline
        rw [if_neg newline, stepped]
        exact ih start (c :: piece) ⟨m.offset + c.utf8Size, m.line, m.column + 1⟩
          (congrArg (· + 1) column) (by rw [utf8Length_cons]; omega)

/-- The position of an offset between two characters is the one that is counted. -/
theorem Source.position_of_split {source : Source} {front rest : List Char}
    (split : source.text.toList = front ++ rest) :
    source.position (utf8Length front) = (Mark.origin.advance front).position := by
  obtain ⟨before, line, found, counted, within⟩ :=
    linesFrom_offset 0 [] front rest Mark.origin rfl (Nat.zero_add (utf8Length front)).symm
  obtain ⟨n, chars, column⟩ := Option.map_eq_some_iff.1 within
  have lines : source.lines.takeWhile (·.start ≤ utf8Length front) = before ++ [line] := by
    rw [Source.lines, split]
    exact found
  rw [Source.position, lines, Mark.position, counted, ← column]
  simp [chars, Mark.origin, UInt32.ofNat_add, UInt32.add_comm]

/-- The bytes of a text from one offset to another are these characters. -/
def Cuts (text : List Char) (start stop : Nat) (chars : List Char) : Prop :=
  ∃ front back, text = front ++ chars ++ back ∧ start = utf8Length front ∧
    stop = utf8Length front + utf8Length chars

/-- The position of a later offset is a later one, or the same, if neither is out of bounds. -/
theorem Source.position_le {source : Source} (short : source.text.utf8ByteSize < UInt32.size)
    {front front' rest rest' : List Char} (split : source.text.toList = front ++ rest)
    (split' : source.text.toList = front' ++ rest')
    (le : utf8Length front ≤ utf8Length front') (inside : rest' ≠ []) :
    source.position (utf8Length front) ≤ source.position (utf8Length front') := by
  obtain ⟨w, longer⟩ := exists_append_of_utf8Length_le (split.symm.trans split') le
  rw [source.position_of_split split, source.position_of_split split', longer,
    Mark.advance_append]
  -- a character is left behind the later offset, so lines and columns are counted within 32 bits
  have bounded : (front ++ w).length + 1 < UInt32.size := by
    have size := length_le_utf8ByteSize source.text
    have some := List.length_pos_iff.2 inside
    rw [split', List.length_append, longer] at size
    omega
  have lines := Mark.line_advance_le Mark.origin (front ++ w)
  have columns := Mark.column_advance_le Mark.origin Nat.one_pos (front ++ w)
  have order := Mark.line_or_column_advance (Mark.origin.advance front) w
  have columns' := Mark.column_advance_le Mark.origin Nat.one_pos front
  rw [Mark.advance_append] at lines columns
  rw [List.length_append] at bounded lines columns
  generalize Mark.origin.advance front = m at *
  generalize m.advance w = n at *
  simp only [Mark.origin] at lines columns columns'
  change UInt32.ofNat m.line < UInt32.ofNat n.line ∨
    UInt32.ofNat m.line = UInt32.ofNat n.line ∧ UInt32.ofNat m.column ≤ UInt32.ofNat n.column
  rcases order with below | ⟨same, column⟩
  · refine .inl (UInt32.lt_iff_toNat_lt.2 ?_)
    rw [UInt32.toNat_ofNat_of_lt' (by omega), UInt32.toNat_ofNat_of_lt' (by omega)]
    exact below
  · refine .inr ⟨by rw [same], UInt32.le_iff_toNat_le.2 ?_⟩
    rw [UInt32.toNat_ofNat_of_lt' (by omega), UInt32.toNat_ofNat_of_lt' (by omega)]
    exact column

end TinyScript
