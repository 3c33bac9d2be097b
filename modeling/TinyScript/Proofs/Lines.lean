import TinyScript.Source.Basic
import TinyScript.Source.Cursor

/-!
# Marks and lines

A mark counts lines and columns while a text is scanned, and the line index
cuts the text at its newlines.  Both agree: a word that stands behind a mark
stands in the line and the column of the mark.  Carriage returns at the end of
a line are not part of it, but they are never part of the word either.
-/

namespace TinyScript

namespace Mark

theorem line_advance_le (m : Mark) (chars : List Char) :
    m.line ≤ (m.advance chars).line ∧ (m.advance chars).line ≤ m.line + chars.length := by
  induction chars generalizing m with
  | nil => exact ⟨Nat.le_refl _, Nat.le_refl _⟩
  | cons c chars ih =>
      obtain ⟨low, high⟩ := ih (m.step c)
      rw [advance, List.foldl_cons, ← advance, List.length_cons]
      have stepped : m.line ≤ (m.step c).line ∧ (m.step c).line ≤ m.line + 1 := by
        unfold step
        split <;> simp
      omega

theorem line_advance (m : Mark) (chars : List Char) :
    (m.advance chars).line = m.line + chars.count '\n' := by
  induction chars generalizing m with
  | nil => rfl
  | cons c chars ih =>
      rw [advance, List.foldl_cons, ← advance, ih, List.count_cons]
      unfold step
      split
      · next newline => simp [newline, Nat.add_comm, Nat.add_left_comm]
      · next other => simp [other]

theorem column_advance_le (m : Mark) (begun : 0 < m.column) (chars : List Char) :
    (m.advance chars).column ≤ m.column + chars.length := by
  induction chars generalizing m with
  | nil => exact Nat.le_refl _
  | cons c chars ih =>
      have stepped : 0 < (m.step c).column ∧ (m.step c).column ≤ m.column + 1 := by
        unfold step
        split <;> simp
      have behind := ih (m.step c) stepped.1
      rw [advance, List.foldl_cons, ← advance, List.length_cons]
      omega

end Mark

/-- A text takes a byte for every character at least. -/
theorem length_le_utf8ByteSize (text : String) : text.toList.length ≤ text.utf8ByteSize := by
  rw [← String.ofList_toList (s := text)]
  generalize text.toList = chars
  rw [String.toList_ofList]
  induction chars with
  | nil => exact Nat.zero_le _
  | cons c chars ih =>
      have positive := c.utf8Size_pos
      rw [String.ofList_cons, String.utf8ByteSize_append, String.utf8ByteSize_singleton,
        List.length_cons]
      omega

/-- A text has a line more than newlines. -/
theorem length_linesFrom (start : Nat) (piece rest : List Char) :
    (linesFrom start piece rest).length = rest.count '\n' + 1 := by
  induction rest generalizing start piece with
  | nil => rfl
  | cons c rest ih =>
      unfold linesFrom
      split
      · next newline => rw [List.length_cons, ih, newline, List.count_cons_self]
      · next other => rw [ih, List.count_cons_of_ne other]

/-- The first line reaches to the first newline. -/
theorem linesFrom_first (start : Nat) (piece rest : List Char) :
    (linesFrom start piece rest)[0]? =
      some ⟨start, piece.reverse ++ rest.takeWhile (· ≠ '\n')⟩ := by
  induction rest generalizing start piece with
  | nil => simp [linesFrom]
  | cons c rest ih =>
      unfold linesFrom
      split
      · next newline => simp [newline]
      · next other =>
          rw [ih, List.takeWhile_cons_of_pos (by simpa using other)]
          simp

/-- The line and the column that are counted up to a place are those of the line index. -/
theorem linesFrom_mark (start : Nat) (piece front rest : List Char) (m : Mark)
    (column : m.column = piece.length + 1) :
    ∃ start' before, (linesFrom start piece (front ++ rest))[(m.advance front).line - m.line]? =
        some ⟨start', before ++ rest.takeWhile (· ≠ '\n')⟩ ∧
      (m.advance front).column = before.length + 1 := by
  induction front generalizing start piece m with
  | nil =>
      refine ⟨start, piece.reverse, ?_, ?_⟩
      · rw [List.nil_append, Mark.advance, List.foldl_nil, Nat.sub_self]
        exact linesFrom_first start piece rest
      · rw [List.length_reverse]
        exact column
  | cons c front ih =>
      rw [Mark.advance, List.foldl_cons, ← Mark.advance, List.cons_append, linesFrom]
      by_cases newline : c = '\n'
      · -- the line of the piece ends, and the next one is counted from its beginning
        have stepped : m.step c = ⟨m.offset + 1, m.line + 1, 1⟩ := if_pos newline
        rw [if_pos newline, stepped]
        obtain ⟨start', before, found, counted⟩ :=
          ih (start + utf8Length piece + 1) [] ⟨m.offset + 1, m.line + 1, 1⟩ rfl
        have further := (Mark.line_advance_le ⟨m.offset + 1, m.line + 1, 1⟩ front).1
        refine ⟨start', before, ?_, counted⟩
        generalize (Mark.advance ⟨m.offset + 1, m.line + 1, 1⟩ front).line = line at found further ⊢
        obtain ⟨n, rfl⟩ : ∃ n, line = m.line + 1 + n := Nat.exists_eq_add_of_le further
        have index : m.line + 1 + n - m.line = n + 1 := by omega
        rw [index, List.getElem?_cons_succ]
        rwa [Nat.add_sub_cancel_left] at found
      · have stepped : m.step c = ⟨m.offset + c.utf8Size, m.line, m.column + 1⟩ := if_neg newline
        rw [if_neg newline, stepped]
        exact ih start (c :: piece) ⟨m.offset + c.utf8Size, m.line, m.column + 1⟩
          (congrArg (· + 1) column)

/-- The text of a line keeps everything up to the end of a word without carriage returns. -/
theorem Line.text_keeps {line : Line} {front word rest : List Char}
    (chars : line.chars = front ++ word ++ rest) (visible : word ≠ []) (plain : '\r' ∉ word) :
    ∃ kept, line.text.toList = front ++ word ++ kept ∧ kept <+: rest := by
  obtain ⟨last, others, backwards⟩ : ∃ last others, word.reverse = last :: others :=
    List.exists_cons_of_ne_nil (mt List.reverse_eq_nil_iff.1 visible)
  have other : last ≠ '\r' := by
    rintro rfl
    refine plain (List.mem_reverse.1 ?_)
    rw [backwards]
    exact List.mem_cons_self
  rw [Line.text, String.toList_ofList, chars, List.reverse_append, List.dropWhile_append]
  split
  · refine ⟨[], ?_, List.nil_prefix⟩
    rw [List.reverse_append, backwards, List.cons_append,
      List.dropWhile_cons_of_neg (by simpa using other), ← List.cons_append, ← backwards]
    simp
  · refine ⟨(rest.reverse.dropWhile (· == '\r')).reverse, by simp, ?_⟩
    rw [← List.reverse_suffix, List.reverse_reverse]
    exact List.dropWhile_suffix _

/-- A cursor stands at a place of a text. -/
def Cursor.Within (text : List Char) (c : Cursor) : Prop :=
  ∃ front, text = front ++ c.rest ∧ c.mark = Mark.origin.advance front

/--
A word at a place of a text stands in the line and column of the place, and
behind it what is left of that line.
-/
theorem Source.line?_of_within {source : Source} (short : source.text.utf8ByteSize < UInt32.size)
    {c : Cursor} (within : c.Within source.text.toList) {word rest : List Char}
    (ahead : c.rest = word ++ rest) (visible : word ≠ [])
    (plain : ∀ d ∈ word, d ≠ '\n' ∧ d ≠ '\r') :
    ∃ text front behind, source.line? c.mark.position.line = some text ∧
      text.toList = front ++ word ++ behind ∧
      c.mark.position.column.toNat = front.length + 1 ∧ behind <+: rest := by
  obtain ⟨front, split, marked⟩ := within
  obtain ⟨start, before, found, column⟩ := linesFrom_mark 0 [] front c.rest Mark.origin rfl
  rw [← split, ← marked] at found
  rw [← marked] at column
  -- the word is not empty, so even the place in front of it is counted within 32 bits
  have bounded : c.mark.line < UInt32.size ∧ 1 ≤ c.mark.line ∧ c.mark.column < UInt32.size := by
    have size := length_le_utf8ByteSize source.text
    have lines := Mark.line_advance_le Mark.origin front
    have columns := Mark.column_advance_le Mark.origin Nat.one_pos front
    have some := List.length_pos_iff.2 visible
    rw [split, ahead, List.length_append, List.length_append] at size
    rw [← marked] at lines columns
    simp only [Mark.origin] at lines columns
    omega
  obtain ⟨lines, first, columns⟩ := bounded
  have oneLine : ∀ d ∈ word, decide (d ≠ '\n') = true := by
    intro d mem
    simpa using (plain d mem).1
  have chars : before ++ c.rest.takeWhile (· ≠ '\n') =
      before ++ word ++ rest.takeWhile (· ≠ '\n') := by
    rw [ahead, List.takeWhile_append_of_pos oneLine, List.append_assoc]
  have lineEnd : rest.takeWhile (· ≠ '\n') <+: rest := List.takeWhile_prefix _
  rw [chars] at found
  generalize rest.takeWhile (· ≠ '\n') = tail at found lineEnd
  obtain ⟨behind, text, part⟩ := @Line.text_keeps ⟨start, before ++ word ++ tail⟩ _ _ _ rfl visible
    fun mem => (plain _ mem).2 rfl
  refine ⟨_, before, behind, ?_, text, ?_, part.trans lineEnd⟩
  · have number : (UInt32.ofNat c.mark.line).toNat = c.mark.line := UInt32.toNat_ofNat_of_lt lines
    rw [Source.line?, Mark.position, if_neg, number]
    · exact congrArg (Option.map Line.text) found
    · intro zero
      have none := congrArg UInt32.toNat zero
      rw [number] at none
      change c.mark.line = 0 at none
      omega
  · have number : (UInt32.ofNat c.mark.column).toNat = c.mark.column :=
      UInt32.toNat_ofNat_of_lt columns
    exact number.trans column

end TinyScript
