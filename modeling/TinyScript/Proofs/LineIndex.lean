import Mathlib.Data.List.DropRight
import Mathlib.Data.Nat.Find
import TinyScript.Proofs.Offsets

/-!
# The line index and a plain scan

The line index of a text holds the pieces between its newlines, each with the
offset at which it begins, and a position is found by looking an offset up in
it.  A scan from the beginning of the text counts newlines, and characters
behind the last newline.  Both agree at every offset between two characters,
and an offset elsewhere is sent to the beginning of the line it falls into.
-/

namespace TinyScript

/-- The index has the pieces of the text, the first one behind what was collected for it. -/
theorem linesFrom_chars (start : Nat) (piece rest : List Char) :
    (linesFrom start piece rest).map Line.chars =
      (rest.splitOn '\n').modifyHead (piece.reverse ++ ·) := by
  induction rest generalizing start piece with
  | nil => simp [linesFrom]
  | cons c rest ih =>
      rw [List.splitOn_eq_splitOnP, List.splitOnP_cons_eq_if_modifyHead,
        ← List.splitOn_eq_splitOnP, linesFrom]
      by_cases newline : c = '\n'
      · rw [if_pos newline, if_pos (beq_iff_eq.2 newline), List.map_cons, ih,
          List.modifyHead_cons, List.append_nil, List.reverse_nil]
        exact congrArg (List.cons _) (congrFun List.modifyHead_id _)
      · rw [if_neg newline, if_neg (mt beq_iff_eq.1 newline), ih, List.modifyHead_modifyHead]
        refine congrArg (List.modifyHead · _) (funext fun piece' => ?_)
        simp

theorem Source.lines_chars (source : Source) :
    source.lines.map Line.chars = source.text.toList.splitOn '\n' := by
  rw [Source.lines, linesFrom_chars]
  exact congrFun List.modifyHead_id _

/-- The text of a line is the piece with its number, without the returns at its end. -/
theorem Source.line?_eq (source : Source) {number : UInt32} (positive : number ≠ 0) :
    source.line? number = ((source.text.toList.splitOn '\n')[number.toNat - 1]?).map fun piece =>
      String.ofList (piece.rdropWhile (· == '\r')) := by
  rw [Source.line?, if_neg positive, ← source.lines_chars, List.getElem?_map, Option.map_map]
  rfl

namespace Mark

/-- The column of a scan counts the characters behind the last newline. -/
theorem column_advance_origin (chars : List Char) :
    (origin.advance chars).column = (chars.rtakeWhile (· ≠ '\n')).length + 1 := by
  induction chars using List.reverseRecOn with
  | nil => rfl
  | append_singleton chars c ih =>
      rw [advance_append, advance_cons, advance_nil, step]
      split
      · next newline =>
          rw [List.rtakeWhile_concat_neg _ _ _ (by simpa using newline), List.length_nil]
      · next other =>
          rw [List.rtakeWhile_concat_pos _ _ _ (by simpa using other), List.length_append, ih]
          rfl

/-- A scan stands behind the bytes that it went over. -/
theorem advance_origin (chars : List Char) :
    origin.advance chars = ⟨utf8Length chars, chars.count '\n' + 1,
      (chars.rtakeWhile (· ≠ '\n')).length + 1⟩ := by
  have parts : origin.advance chars = ⟨(origin.advance chars).offset,
      (origin.advance chars).line, (origin.advance chars).column⟩ := rfl
  rw [parts, offset_advance, line_advance, column_advance_origin, origin, Nat.zero_add,
    Nat.add_comm 1]

/-- A scan that goes on comes to a later line or to a later column. -/
theorem before_advance (m : Mark) {chars : List Char} (some : chars ≠ []) :
    m.line < (m.advance chars).line ∨
      m.line = (m.advance chars).line ∧ m.column < (m.advance chars).column := by
  obtain ⟨c, chars, rfl⟩ := List.exists_cons_of_ne_nil some
  have behind := line_or_column_advance (m.step c) chars
  have stepped : m.line < (m.step c).line ∨
      m.line = (m.step c).line ∧ m.column < (m.step c).column := by
    unfold step
    split
    · exact .inl (Nat.lt_succ_self _)
    · exact .inr ⟨rfl, Nat.lt_succ_self _⟩
  rw [advance_cons]
  omega

end Mark

/-- A line of a text begins behind these characters: at the beginning, or behind a newline. -/
def BeginsLine (text front : List Char) : Prop :=
  front <+: text ∧ ∀ last ∈ front.getLast?, last = '\n'

/-- Every line of the index begins behind a newline or with the piece that was collected. -/
theorem exists_front_of_mem_linesFrom {start : Nat} {piece rest : List Char} {line : Line}
    (mem : line ∈ linesFrom start piece rest) :
    line = ⟨start, piece.reverse ++ rest.takeWhile (· ≠ '\n')⟩ ∨
      ∃ front back, rest = front ++ '\n' :: back ∧
        line = ⟨start + utf8Length piece + utf8Length front + 1, back.takeWhile (· ≠ '\n')⟩ := by
  induction rest generalizing start piece with
  | nil =>
      rw [linesFrom, List.mem_singleton] at mem
      exact .inl (by simp [mem])
  | cons c rest ih =>
      rw [linesFrom] at mem
      split at mem
      · next newline =>
          subst newline
          rcases List.mem_cons.1 mem with rfl | mem
          · exact .inl (by simp)
          · refine .inr ?_
            rcases ih mem with rfl | ⟨front, back, rfl, rfl⟩
            · exact ⟨[], rest, rfl, by simp⟩
            · refine ⟨'\n' :: front, back, rfl, ?_⟩
              have size : '\n'.utf8Size = 1 := rfl
              simp [size]
              omega
      · next other =>
          rcases ih mem with rfl | ⟨front, back, rfl, rfl⟩
          · refine .inl ?_
            rw [List.takeWhile_cons_of_pos (by simpa using other)]
            simp
          · refine .inr ⟨c :: front, back, rfl, ?_⟩
            simp
            omega

namespace Source

variable {source : Source}

/-- Every line of the index lies behind the characters at which it begins. -/
theorem exists_front_of_mem_lines {line : Line} (mem : line ∈ source.lines) :
    ∃ front, BeginsLine source.text.toList front ∧ line.start = utf8Length front ∧
      front ++ line.chars <+: source.text.toList := by
  rcases exists_front_of_mem_linesFrom mem with rfl | ⟨front, back, split, rfl⟩
  · exact ⟨[], ⟨ List.nil_prefix, by simp⟩, rfl, List.takeWhile_prefix _⟩
  · refine ⟨front ++ ['\n'], ⟨⟨back, by simp [split]⟩, by simp⟩, ?_, ?_⟩
    · have size : '\n'.utf8Size = 1 := rfl
      simp [size]
    · obtain ⟨more, tail⟩ := List.takeWhile_prefix (p := (· ≠ '\n')) (l := back)
      refine ⟨more, ?_⟩
      rw [split]
      simpa using tail

end Source

/-- Characters are counted within bytes only where the bytes end between two characters. -/
theorem exists_prefix_of_charsWithin? {bytes n : Nat} {chars : List Char}
    (found : charsWithin? bytes chars = some n) : ∃ u, u <+: chars ∧ utf8Length u = bytes := by
  induction chars generalizing bytes n with
  | nil =>
      rw [charsWithin?] at found
      split at found
      · next none => exact ⟨[], List.nil_prefix, none.symm⟩
      · cases found
  | cons c chars ih =>
      rw [charsWithin?] at found
      split at found
      · next none => exact ⟨[], List.nil_prefix, none.symm⟩
      · split at found
        · cases found
        · next room =>
            obtain ⟨k, found, _⟩ := Option.map_eq_some_iff.1 found
            obtain ⟨u, part, size⟩ := ih found
            refine ⟨c :: u, List.cons_prefix_cons.2 ⟨rfl, part⟩, ?_⟩
            rw [utf8Length_cons, size]
            omega

theorem takeWhile_eq_of_forall_mem {α : Type} {p q : α → Bool} {l : List α}
    (same : ∀ a ∈ l, p a = q a) : l.takeWhile p = l.takeWhile q := by
  induction l with
  | nil => rfl
  | cons a l ih =>
      rw [List.forall_mem_cons] at same
      rw [List.takeWhile_cons, List.takeWhile_cons, same.1, ih same.2]

/-- One position stands in front of another: on an earlier line, or in an earlier column of it. -/
def Position.Before (p q : Position) : Prop :=
  p.line < q.line ∨ p.line = q.line ∧ p.column < q.column

namespace Source

variable {source : Source}

/-- A text of less than 32 bits has lines and columns of less than 32 bits. -/
theorem scan_lt (short : source.text.utf8ByteSize + 1 < UInt32.size) {front : List Char}
    (inside : front <+: source.text.toList) :
    front.count '\n' + 1 < UInt32.size ∧
      (front.rtakeWhile (· ≠ '\n')).length + 1 < UInt32.size := by
  have size := length_le_utf8ByteSize source.text
  have part := inside.length_le
  have newlines : front.count '\n' ≤ front.length := List.count_le_length
  have column := (List.rtakeWhile_suffix (· ≠ '\n') front).length_le
  omega

/-- Between two characters the position is the one that a scan counts. -/
theorem position_of_front {front : List Char} (inside : front <+: source.text.toList) :
    source.position (utf8Length front) = ⟨UInt32.ofNat (front.count '\n' + 1),
      UInt32.ofNat ((front.rtakeWhile (· ≠ '\n')).length + 1)⟩ := by
  obtain ⟨rest, split⟩ := inside
  rw [source.position_of_split split.symm, Mark.advance_origin]
  rfl

/-- A later place of a text has a later position. -/
theorem position_before (short : source.text.utf8ByteSize + 1 < UInt32.size)
    {front front' : List Char} (inside : front <+: source.text.toList)
    (inside' : front' <+: source.text.toList) (lt : utf8Length front < utf8Length front') :
    (source.position (utf8Length front)).Before (source.position (utf8Length front')) := by
  obtain ⟨lines, columns⟩ := scan_lt short inside
  obtain ⟨lines', columns'⟩ := scan_lt short inside'
  rw [position_of_front inside, position_of_front inside']
  obtain ⟨rest, split⟩ := inside
  obtain ⟨rest', split'⟩ := inside'
  obtain ⟨w, rfl⟩ := exists_append_of_utf8Length_le (split.trans split'.symm) (Nat.le_of_lt lt)
  have some : w ≠ [] := by
    rintro rfl
    rw [List.append_nil] at lt
    exact Nat.lt_irrefl _ lt
  have order := (Mark.origin.advance front).before_advance some
  rw [← Mark.advance_append, Mark.advance_origin, Mark.advance_origin] at order
  rcases order with line | ⟨line, column⟩
  · refine .inl (UInt32.lt_iff_toNat_lt.2 ?_)
    rw [UInt32.toNat_ofNat_of_lt' lines, UInt32.toNat_ofNat_of_lt' lines']
    exact line
  · refine .inr ⟨congrArg UInt32.ofNat line, UInt32.lt_iff_toNat_lt.2 ?_⟩
    rw [UInt32.toNat_ofNat_of_lt' columns, UInt32.toNat_ofNat_of_lt' columns']
    exact column

/-- An offset within a character or beyond the text is sent to the beginning of its line. -/
theorem position_elsewhere {offset : Nat}
    (elsewhere : ∀ front, front <+: source.text.toList → utf8Length front ≠ offset)
    {front : List Char} (begins : BeginsLine source.text.toList front)
    (le : utf8Length front ≤ offset)
    (last : ∀ front', BeginsLine source.text.toList front' → utf8Length front' ≤ offset →
      utf8Length front' ≤ utf8Length front) :
    source.position offset = ⟨UInt32.ofNat (front.count '\n' + 1), 1⟩ := by
  obtain ⟨rest, split⟩ := begins.1
  obtain ⟨before, line, found, counted, _⟩ :=
    linesFrom_offset 0 [] front rest Mark.origin rfl (Nat.zero_add (utf8Length front)).symm
  rw [split] at found
  change source.lines.takeWhile _ = _ at found
  -- no line begins between the last beginning and the offset
  have same : source.lines.takeWhile (·.start ≤ offset) = before ++ [line] := by
    rw [← found]
    refine takeWhile_eq_of_forall_mem fun line mem => ?_
    obtain ⟨front', begins', start, _⟩ := exists_front_of_mem_lines mem
    have early := last front' begins'
    exact decide_eq_decide.2 (by omega)
  have mem : line ∈ source.lines.takeWhile (·.start ≤ utf8Length front) := by
    rw [found]
    exact List.mem_append_right _ (List.mem_singleton_self line)
  have early : line.start ≤ utf8Length front := by simpa using List.mem_takeWhile_imp mem
  have none : charsWithin? (offset - line.start) line.chars = none := by
    refine Option.eq_none_iff_forall_ne_some.2 fun n chars => ?_
    obtain ⟨u, part, size⟩ := exists_prefix_of_charsWithin? chars
    obtain ⟨front', _, start, inside⟩ :=
      exists_front_of_mem_lines ((List.takeWhile_sublist _).subset mem)
    refine elsewhere (front' ++ u) (((List.prefix_append_right_inj front').2 part).trans inside) ?_
    rw [utf8Length_append]
    omega
  have number : before.length = front.count '\n' := by
    rw [Mark.line_advance] at counted
    exact (Nat.add_left_cancel counted).symm
  rw [Source.position, same]
  simp [none, number, UInt32.ofNat_add]

/-- The position of any offset is on a line of the text. -/
theorem exists_line_of_position (short : source.text.utf8ByteSize + 1 < UInt32.size)
    (offset : Nat) : ∃ text, source.line? (source.position offset).line = some text := by
  obtain ⟨others, first, _⟩ := linesFrom_others 0 [] source.text.toList
  obtain ⟨before, more⟩ : ∃ before : List Line,
      source.lines.takeWhile (·.start ≤ offset) = ⟨0, _⟩ :: before := by
    rw [Source.lines, first, List.takeWhile_cons_of_pos (by simp)]
    exact ⟨_, rfl⟩
  have count : before.length + 1 ≤ source.lines.length := by
    rw [← List.length_cons, ← more]
    exact (List.takeWhile_sublist _).length_le
  have size := length_le_utf8ByteSize source.text
  have newlines : source.text.toList.count '\n' ≤ source.text.toList.length :=
    List.count_le_length
  have lines : source.lines.length = source.text.toList.count '\n' + 1 := length_linesFrom _ _ _
  have number : ((source.position offset).line).toNat = before.length + 1 := by
    rw [Source.position, more]
    change (UInt32.ofNat before.length + 1).toNat = _
    rw [← UInt32.ofNat_one, ← UInt32.ofNat_add, UInt32.toNat_ofNat_of_lt' (by omega)]
  have positive : (source.position offset).line ≠ 0 := by
    intro zero
    rw [zero] at number
    cases number
  refine ⟨(source.lines.get ⟨before.length, count⟩).text, ?_⟩
  rw [Source.line?, if_neg positive, number, Nat.add_sub_cancel, List.getElem?_eq_getElem count]
  rfl

end Source

/-! ## The whole index -/

/-- Of the lines that begin at or before an offset there is a last one. -/
theorem exists_last_beginsLine (text : List Char) (offset : Nat) :
    ∃ front, BeginsLine text front ∧ utf8Length front ≤ offset ∧
      ∀ front', BeginsLine text front' → utf8Length front' ≤ offset →
        utf8Length front' ≤ utf8Length front := by
  classical
  let Begins (start : Nat) : Prop := ∃ front, BeginsLine text front ∧ utf8Length front = start
  have first : Begins 0 := ⟨[], ⟨ List.nil_prefix, by simp⟩, rfl⟩
  obtain ⟨front, begins, start⟩ := Nat.findGreatest_spec (Nat.zero_le offset) first
  refine ⟨front, begins, start ▸ Nat.findGreatest_le offset, fun front' begins' le => ?_⟩
  rw [start]
  exact Nat.le_findGreatest le ⟨front', begins', rfl⟩

/-- What a scan of a text says about its lines and places is what its line index says. -/
structure Source.IndexedAsScanned (source : Source) : Prop where
  /-- There is one line more than there are newlines. -/
  count : source.lineCount = source.text.toList.count '\n' + 1
  /-- A line is a piece between newlines, without the carriage returns at its end. -/
  line : ∀ number : UInt32, 1 ≤ number.toNat → number.toNat ≤ source.lineCount →
    ∃ piece, (source.text.toList.splitOn '\n')[number.toNat - 1]? = some piece ∧
      source.line? number = some (String.ofList (piece.rdropWhile (· == '\r')))
  /-- No other number is that of a line. -/
  noLine : ∀ number : UInt32, number = 0 ∨ source.lineCount < number.toNat →
    source.line? number = none
  /-- The line of a place counts the newlines in front of it, the column what follows the last. -/
  place : ∀ front, front <+: source.text.toList →
    (source.position (utf8Length front)).line.toNat = 1 + front.count '\n' ∧
    (source.position (utf8Length front)).column.toNat =
      1 + (front.rtakeWhile (· ≠ '\n')).length
  /-- A scan comes to the place with the same line and column. -/
  scan : ∀ front, front <+: source.text.toList →
    Mark.origin.advance front = ⟨utf8Length front,
      (source.position (utf8Length front)).line.toNat,
      (source.position (utf8Length front)).column.toNat⟩
  /-- An offset that is no place has the position of the last beginning of a line before it. -/
  elsewhere : ∀ offset, (∀ front, front <+: source.text.toList → utf8Length front ≠ offset) →
    ∃ front, BeginsLine source.text.toList front ∧ utf8Length front ≤ offset ∧
      (∀ front', BeginsLine source.text.toList front' → utf8Length front' ≤ offset →
        utf8Length front' ≤ utf8Length front) ∧
      (source.position offset).line.toNat = 1 + front.count '\n' ∧
      (source.position offset).column.toNat = 1
  /-- Later places have later positions. -/
  increasing : ∀ front front', front <+: source.text.toList → front' <+: source.text.toList →
    utf8Length front < utf8Length front' →
      (source.position (utf8Length front)).Before (source.position (utf8Length front'))
  /-- Every position is on a line. -/
  onLine : ∀ offset, ∃ text, source.line? (source.position offset).line = some text

/--
The line index of a text that is not too long agrees with a plain scan of it:
in its lines, and in the positions of all offsets.  A text of one byte more
could end in a column that has no number.
-/
theorem line_index_exact {source : Source} (short : source.text.utf8ByteSize + 1 < UInt32.size) :
    source.IndexedAsScanned where
  count := length_linesFrom 0 [] source.text.toList
  line number positive le := by
    have some : number ≠ 0 := by
      rintro rfl
      cases positive
    have pieces : (source.text.toList.splitOn '\n').length = source.lineCount := by
      rw [Source.lineCount, ← List.length_map (f := Line.chars), Source.lines_chars]
    have inside : number.toNat - 1 < (source.text.toList.splitOn '\n').length := by omega
    refine ⟨_, List.getElem?_eq_getElem inside, ?_⟩
    rw [source.line?_eq some, List.getElem?_eq_getElem inside]
    rfl
  noLine number outside := by
    rcases outside with rfl | beyond
    · rfl
    · have some : number ≠ 0 := by
        rintro rfl
        cases beyond
      rw [Source.line?, if_neg some, List.getElem?_eq_none (Nat.le_sub_one_of_lt beyond)]
      rfl
  place front inside := by
    obtain ⟨lines, columns⟩ := Source.scan_lt short inside
    rw [Source.position_of_front inside]
    dsimp only
    rw [UInt32.toNat_ofNat_of_lt' lines, UInt32.toNat_ofNat_of_lt' columns]
    exact ⟨Nat.add_comm _ _, Nat.add_comm _ _⟩
  scan front inside := by
    obtain ⟨lines, columns⟩ := Source.scan_lt short inside
    rw [Source.position_of_front inside, Mark.advance_origin]
    dsimp only
    rw [UInt32.toNat_ofNat_of_lt' lines, UInt32.toNat_ofNat_of_lt' columns]
  elsewhere offset elsewhere := by
    obtain ⟨front, begins, le, last⟩ := exists_last_beginsLine source.text.toList offset
    refine ⟨front, begins, le, last, ?_, ?_⟩
    · rw [Source.position_elsewhere elsewhere begins le last]
      dsimp only
      rw [UInt32.toNat_ofNat_of_lt' (Source.scan_lt short begins.1).1, Nat.add_comm]
    · rw [Source.position_elsewhere elsewhere begins le last]
      rfl
  increasing _ _ inside inside' lt := Source.position_before short inside inside' lt
  onLine offset := Source.exists_line_of_position short offset

/-- Lines with one return, with two, with none, and empty ones; characters of several bytes. -/
def mixedEndings : Source := ⟨"mixed", "é = 'ü';\r\n\r\r\n\n\tz\r € \r"⟩

/-- The last line keeps the return within it; an offset within a character has column one. -/
theorem line_index_exact_mixedEndings :
    mixedEndings.text.utf8ByteSize + 1 < UInt32.size ∧ mixedEndings.IndexedAsScanned ∧
      mixedEndings.lineCount = 4 ∧ mixedEndings.line? 2 = some "" ∧
      mixedEndings.line? 4 = some "\tz\r € " ∧
      mixedEndings.position 20 = ⟨4, 5⟩ ∧ mixedEndings.position 21 = ⟨4, 1⟩ := by
  have short : mixedEndings.text.utf8ByteSize + 1 < UInt32.size := by decide
  exact ⟨short, line_index_exact short, by decide, by decide, by decide, by decide, by decide⟩

end TinyScript
