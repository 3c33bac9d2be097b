import TinyScript.CommandLine.Outcome
import TinyScript.Proofs.BlamedNodes
import TinyScript.Proofs.LineIndex

/-!
# Carets

A diagnostic that knows a place shows the line around it behind the number of
the line, and a caret in the line below.  The columns are counted in
characters, and returns at the end of the line are not shown; so the caret
stands under the character at the place, or behind the line at the end of the
text.  Main statement: this holds whatever stops the run of a script, if the
columns of its text have numbers of 32 bits.  A text that is one byte too long
for this is refused at its end with the caret under its first character.
-/

namespace TinyScript

/-- The beginning of a line, up to the place behind these characters. -/
def lineBefore (front : List Char) : List Char := front.rtakeWhile (· ≠ '\n')

/-- The line around the place between these characters, without the returns at its end. -/
def lineAround (front rest : List Char) : List Char :=
  (lineBefore front ++ rest.takeWhile (· ≠ '\n')).rdropWhile (· == '\r')

theorem lineAround_part (front rest : List Char) :
    lineAround front rest <+: lineBefore front ++ rest.takeWhile (· ≠ '\n') :=
  List.rdropWhile_prefix _ _

theorem lineBefore_of_plain {front : List Char} (plain : '\n' ∉ front) :
    lineBefore front = front := by
  refine List.rtakeWhile_eq_self_iff.2 fun c mem => ?_
  have other : c ≠ '\n' := fun same => plain (same ▸ mem)
  simpa using other

theorem lineBefore_append_newline (before front : List Char) :
    lineBefore (before ++ '\n' :: front) = lineBefore front := by
  induction front using List.reverseRecOn with
  | nil => exact List.rtakeWhile_concat_neg _ _ _ (by simp)
  | append_singleton front c ih =>
      rw [lineBefore, lineBefore, ← List.cons_append, ← List.append_assoc]
      by_cases newline : c = '\n'
      · rw [List.rtakeWhile_concat_neg _ _ _ (by simpa using newline),
          List.rtakeWhile_concat_neg _ _ _ (by simpa using newline)]
      · rw [List.rtakeWhile_concat_pos _ _ _ (by simpa using newline),
          List.rtakeWhile_concat_pos _ _ _ (by simpa using newline)]
        exact congrArg (· ++ [c]) ih

theorem newline_not_mem_lineBefore (front : List Char) : '\n' ∉ lineBefore front := by
  intro mem
  have other := List.mem_rtakeWhile_imp mem
  simp at other

theorem newline_not_mem_lineAround (front rest : List Char) :
    '\n' ∉ (String.ofList (lineAround front rest)).toList := by
  rw [String.toList_ofList]
  intro mem
  rcases List.mem_append.1 ((lineAround_part front rest).subset mem) with mem | mem
  · exact newline_not_mem_lineBefore front mem
  · have other := List.mem_takeWhile_imp mem
    simp at other

/-- The line of the index with so many newlines in front of it is the line around the place. -/
theorem linesFrom_around (start : Nat) {piece : List Char} (plain : '\n' ∉ piece)
    (front rest : List Char) :
    ((linesFrom start piece (front ++ rest))[front.count '\n']?).map Line.chars =
      some (lineBefore (piece.reverse ++ front) ++ rest.takeWhile (· ≠ '\n')) := by
  induction front generalizing start piece with
  | nil =>
      have plain : '\n' ∉ piece.reverse := mt List.mem_reverse.1 plain
      rw [List.nil_append, List.count_nil, linesFrom_first, List.append_nil,
        lineBefore_of_plain plain]
      rfl
  | cons c front ih =>
      rw [List.cons_append, linesFrom]
      split
      · next newline =>
          -- the line of the piece ends, and nothing is collected for the next one
          subst newline
          rw [List.count_cons_self, List.getElem?_cons_succ, lineBefore_append_newline]
          exact ih _ List.not_mem_nil
      · next other =>
          rw [List.count_cons_of_ne other]
          have plain : '\n' ∉ c :: piece :=
            mt List.mem_cons.1 (not_or.2 ⟨fun same => other same.symm, plain⟩)
          have kept := ih start plain
          rwa [List.reverse_cons, List.append_assoc] at kept

/-- A visible character behind a place is not among what is left out of the line around it. -/
theorem lineAround_visible (front : List Char) {d : Char} {rest : List Char}
    (visible : Lexeme.isBlank d = false) :
    ∃ behind, lineAround front (d :: rest) = lineBefore front ++ d :: behind := by
  have oneLine : d ≠ '\n' := by
    rintro rfl
    cases visible
  have plain : '\r' ∉ [d] := by
    rw [List.mem_singleton]
    rintro rfl
    cases visible
  have chars : lineBefore front ++ (d :: rest).takeWhile (· ≠ '\n') =
      lineBefore front ++ [d] ++ rest.takeWhile (· ≠ '\n') := by
    rw [List.takeWhile_cons_of_pos (by simpa using oneLine), List.append_assoc]
    rfl
  obtain ⟨behind, text, _⟩ := @Line.text_keeps ⟨0, _⟩ _ _ _ chars (List.cons_ne_nil d []) plain
  rw [Line.text, String.toList_ofList] at text
  exact ⟨behind, text.trans (List.append_assoc _ _ _)⟩

/-- The line with the number of a place is the line around it. -/
theorem Source.line?_around {source : Source} {front rest : List Char}
    (split : source.text.toList = front ++ rest)
    (lines : front.count '\n' + 1 < UInt32.size) :
    source.line? (UInt32.ofNat (front.count '\n' + 1)) =
      some (String.ofList (lineAround front rest)) := by
  have number := UInt32.toNat_ofNat_of_lt' lines
  have positive : UInt32.ofNat (front.count '\n' + 1) ≠ 0 := by
    intro zero
    rw [zero] at number
    cases number
  obtain ⟨line, found, chars⟩ :=
    Option.map_eq_some_iff.1 (linesFrom_around 0 List.not_mem_nil front rest)
  rw [Source.line?, if_neg positive, number, Nat.add_sub_cancel, Source.lines, split, found,
    Option.map_some, Line.text, chars]
  rfl

/-- The last two lines of a text. -/
def EndsInLines (text above below : String) : Prop :=
  (∃ head, text = head ++ "\n" ++ above ++ "\n" ++ below) ∧
    '\n' ∉ above.toList ∧ '\n' ∉ below.toList

/-- The last line is the one that is behind the last newline. -/
theorem EndsInLines.last {text above below : String} (ends : EndsInLines text above below) :
    lineBefore text.toList = below.toList := by
  obtain ⟨⟨head, rfl⟩, _, plain⟩ := ends
  rw [String.toList_append, String.toList_append, List.append_assoc]
  exact (lineBefore_append_newline _ _).trans (lineBefore_of_plain plain)

namespace Diagnostic

def gutter (p : Position) : String := toString p.line ++ " | "

theorem newline_not_mem_gutter (p : Position) : '\n' ∉ (gutter p).toList := by
  rw [gutter, String.toList_append, List.mem_append]
  rintro (mem | mem)
  · have number : (toString p.line).toList = Nat.toDigits 10 p.line.toNat := Nat.toList_repr
    rw [number] at mem
    cases Nat.isDigit_of_mem_toDigits (by decide) (by decide) mem
  · exact absurd mem (by decide)

theorem eq_blank_of_mem_blanks {width : Nat} {c : Char} (mem : c ∈ (blanks width).toList) :
    c = ' ' := by
  rw [blanks, String.toList_ofList] at mem
  exact List.eq_of_mem_replicate mem

theorem length_blanks (width : Nat) : (blanks width).length = width := by
  rw [blanks, String.length_ofList, List.length_replicate]

def indent (p : Position) : String :=
  blanks (toString p.line).length ++ " | " ++ blanks (p.column.toNat - 1)

theorem length_indent (p : Position) :
    (indent p).length = (gutter p).length + (p.column.toNat - 1) := by
  simp only [indent, gutter, String.length_append, length_blanks]

theorem eq_of_mem_indent {p : Position} {c : Char} (mem : c ∈ (indent p).toList) :
    c = ' ' ∨ c = '|' := by
  rw [indent, String.toList_append, String.toList_append, List.mem_append, List.mem_append] at mem
  rcases mem with (mem | mem) | mem
  · exact .inl (eq_blank_of_mem_blanks mem)
  · have bar : [' ', '|', ' '] = " | ".toList := rfl
    rw [← bar] at mem
    simp only [List.mem_cons, List.not_mem_nil, or_false] at mem
    tauto
  · exact .inl (eq_blank_of_mem_blanks mem)

/-- A diagnostic that knows a place and its line ends with the line and a caret below it. -/
theorem render_endsInLines {d : Diagnostic} {span : Span} {line : String}
    (placed : d.span = some span) (quoted : d.sourceLine = some line)
    (oneLine : '\n' ∉ line.toList) :
    EndsInLines d.render (gutter span.start ++ line) (indent span.start ++ "^") := by
  refine ⟨⟨"error[" ++ d.kind ++ "]: " ++ d.place ++ d.message ++ "\n" ++
    blanks (toString span.start.line).length ++ " |", ?_⟩, ?_, ?_⟩
  · simp only [render, placed, quoted, excerpt, gutter, indent, String.append_assoc]
    rfl
  · rw [String.toList_append, List.mem_append]
    exact not_or.2 ⟨newline_not_mem_gutter _, oneLine⟩
  · rw [String.toList_append, List.mem_append]
    rintro (mem | mem)
    · rcases eq_of_mem_indent mem with impossible | impossible <;> cases impossible
    · exact absurd mem (by decide)

end Diagnostic

/-! ## Diagnostics that point at a place -/

/--
A diagnostic points at the place of a text between what is in front of it and
the rest.  It quotes the line around the place and ends with this line behind
a gutter and with a caret below it.  The caret has the index of the character
at the place, and at the end of the text it stands behind the line.
-/
structure Diagnostic.PointsAt (d : Diagnostic) (gutter : String) (front rest : List Char) :
    Prop where
  quoted : d.sourceLine = some (String.ofList (lineAround front rest))
  drawn : ∃ indent : String, '^' ∉ indent.toList ∧
    EndsInLines d.render (gutter ++ String.ofList (lineAround front rest)) (indent ++ "^") ∧
    (∀ c ∈ rest.head?, indent.length = gutter.length + (lineBefore front).length ∧
      ∃ behind, lineAround front rest = lineBefore front ++ c :: behind) ∧
    (rest = [] → gutter.length + (lineAround front rest).length ≤ indent.length)

/-- A diagnostic that points at a place has the caret in the column of the place. -/
theorem Diagnostic.PointsAt.column {d : Diagnostic} {span : Span} {front rest : List Char}
    (placed : d.span = some span) (points : d.PointsAt (gutter span.start) front rest) :
    (∀ c ∈ rest.head?, span.start.column.toNat - 1 = (lineBefore front).length) ∧
      (rest = [] → (lineAround front rest).length ≤ span.start.column.toNat - 1) := by
  obtain ⟨quoted, before, _, ends, under, behind⟩ := points
  have oneLine := newline_not_mem_lineAround front rest
  have last := ends.last.symm.trans (render_endsInLines placed quoted oneLine).last
  have same := congrArg String.length (String.toList_inj.1 last)
  rw [String.length_append, String.length_append, Nat.add_right_cancel_iff, length_indent] at same
  rw [same] at under behind
  exact ⟨fun c head => Nat.add_left_cancel (under c head).1,
    fun none => Nat.le_of_add_le_add_left (behind none)⟩

section

variable {source : Source} {d : Diagnostic} {span : Span}

/-- A position that is reported is one between two parts of the text; no blank is behind it. -/
theorem Reported.exists_place {p : Position} (reported : Reported source.text.toList p) :
    ∃ front rest, source.text.toList = front ++ rest ∧ p = source.position (utf8Length front) ∧
      ∀ c ∈ rest.head?, Lexeme.isBlank c = false := by
  rcases reported with ⟨c, x, rest, ⟨front, split, marked⟩, ahead, visible, rfl⟩ | rfl
  · refine ⟨front, c.rest, split, ?_, ?_⟩
    · rw [source.position_of_split split, marked]
    · rw [ahead]
      rintro _ ⟨⟩
      exact visible
  · have split := (List.append_nil source.text.toList).symm
    exact ⟨_, [], split, (source.position_of_split split).symm, fun _ none => nomatch none⟩

variable (short : source.text.utf8ByteSize + 1 < UInt32.size) {front rest : List Char}
  (split : source.text.toList = front ++ rest)

include short split

theorem length_indent_position :
    let p := source.position (utf8Length front)
    (Diagnostic.indent p).length = (Diagnostic.gutter p).length + (lineBefore front).length := by
  intro p
  have inside : front <+: source.text.toList := ⟨rest, split.symm⟩
  have column : p.column.toNat = (lineBefore front).length + 1 := by
    rw [show p = _ from Source.position_of_front inside]
    exact UInt32.toNat_ofNat_of_lt' (Source.scan_lt short inside).2
  rw [Diagnostic.length_indent, column, Nat.add_sub_cancel]

/-- A diagnostic that quotes the line around a place points at it. -/
theorem Diagnostic.pointsAt (start : span.start = source.position (utf8Length front))
    (visible : ∀ c ∈ rest.head?, Lexeme.isBlank c = false) (placed : d.span = some span)
    (quoted : d.sourceLine = some (String.ofList (lineAround front rest))) :
    d.PointsAt (gutter span.start) front rest := by
  have oneLine := newline_not_mem_lineAround front rest
  have column := length_indent_position short split
  rw [← start] at column
  refine ⟨quoted, indent span.start, ?_, render_endsInLines placed quoted oneLine, ?_, ?_⟩
  · intro mem
    rcases eq_of_mem_indent mem with impossible | impossible <;> cases impossible
  · intro c head
    obtain ⟨more, rfl⟩ : ∃ more, rest = c :: more := List.head?_eq_some_iff.1 head
    obtain ⟨behind, line⟩ := lineAround_visible front (visible c head)
    exact ⟨column, behind, line⟩
  · rintro rfl
    have part := lineAround_part front []
    rw [List.takeWhile_nil, List.append_nil] at part
    rw [column]
    exact Nat.add_le_add_left part.length_le _

omit split

/-- A diagnostic points at the place that it knows, if it quotes the line with its number. -/
theorem Diagnostic.exists_pointsAt (reported : Reported source.text.toList span.start)
    (placed : d.span = some span)
    (quoted : d.sourceLine = some ((source.line? span.start.line).getD "")) :
    ∃ front rest, source.text.toList = front ++ rest ∧
      span.start = source.position (utf8Length front) ∧
      d.PointsAt (gutter span.start) front rest := by
  obtain ⟨front, rest, split, start, visible⟩ := reported.exists_place
  have inside : front <+: source.text.toList := ⟨rest, split.symm⟩
  have number : span.start.line = UInt32.ofNat (front.count '\n' + 1) := by
    rw [start, Source.position_of_front inside]
  have line : (source.line? span.start.line).getD "" = String.ofList (lineAround front rest) := by
    rw [number, Source.line?_around split (Source.scan_lt short inside).1, Option.getD_some]
  exact ⟨front, rest, split, start, Diagnostic.pointsAt short split start visible placed
    (line ▸ quoted)⟩

theorem Visible.exists_line {p : Position} (visible : Visible source.text.toList p) :
    ∃ line, source.line? p.line = some line := by
  obtain ⟨c, x, rest, ⟨front, split, marked⟩, ahead, _, rfl⟩ := visible
  rw [marked, Mark.advance_origin]
  exact ⟨_, Source.line?_around split (Source.scan_lt short ⟨c.rest, split.symm⟩).1⟩

end

/-- A script that is an assignment fails if there is no expression behind the equals sign. -/
theorem Peg.Runs.assigned_nothing {w : List Char} {c : Cursor} {log : List (Rule × Cursor)}
    (skipped : c = (Cursor.mk (Mark.origin.advance ['x', '=']) w).skip)
    (missing : Runs (.rule .expression) c none log) :
    ∃ log', Runs (.rule .program) ⟨.origin, 'x' :: '=' :: w⟩ none log' ∧ log ⊆ log' := by
  subst skipped
  let start : Cursor := ⟨.origin, 'x' :: '=' :: w⟩
  have name : Runs (.rule .identifier) start (some ⟨Mark.origin.advance ['x'], '=' :: w⟩) [] :=
    .rule (.token rfl)
  have sign : Runs (mark '=') ⟨Mark.origin.advance ['x'], '=' :: w⟩
      (some ⟨Mark.origin.advance ['x', '='], w⟩) [] := .token rfl
  -- only the assignment gets past the equals sign; the other rules fail at the name or behind it
  have noAssignment := ruleFails (r := .assignment) (.seq name (.seq sign missing))
  have noCall := ruleFails (r := .call) (.seq name (.seqFails (.noToken rfl)))
  have noSimple : Runs simple start none _ := .seqFails (.second noAssignment noCall)
  have noBranch : Runs (.rule .branch) start none _ :=
    ruleFails (r := .branch) (.seqFails (ruleFails (r := .ifKeyword) (.noToken rfl)))
  have noLoop : Runs (.rule .loop) start none _ :=
    ruleFails (r := .loop) (.seqFails (ruleFails (r := .loopKeyword) (.noToken rfl)))
  have noEnd : Runs (.rule .endOfInput) start none _ :=
    ruleFails (r := .endOfInput) (.noEnding (List.cons_ne_nil _ _))
  have lines : Runs (.many line) start (some start) _ :=
    .manyNone (.second noSimple (.second noBranch noLoop))
  exact ⟨_, ruleFails (r := .program) (.seq (.empty start) (.seq lines noEnd)),
    fun a mem => by simp [mem]⟩

theorem skipTrivia_blanks (mark : Mark) (n : Nat) :
    (skipTrivia false mark (List.replicate n ' ')).rest = [] := by
  induction n generalizing mark with
  | zero => rfl
  | succ n ih => exact ih (mark.step ' ')

theorem Nesting.tooDeepFrom?_blanks (depth : Nat) (mark : Mark) (n : Nat) :
    tooDeepFrom? .code depth mark (List.replicate n ' ') = none := by
  induction n generalizing mark with
  | zero => rfl
  | succ n ih => exact ih (mark.step ' ')

/-- An assignment of nothing, with so many blanks behind the equals sign. -/
def unassigned (n : Nat) : Source := ⟨"unassigned", "x=" ++ Diagnostic.blanks n⟩

theorem toList_unassigned (n : Nat) :
    (unassigned n).text.toList = 'x' :: '=' :: List.replicate n ' ' := by
  rw [unassigned, String.toList_append]
  exact congrArg (['x', '='] ++ ·) String.toList_ofList

theorem unassigned_refused (n : Nat) : ∃ message,
    (unassigned n).parse = .error (.report (unassigned n) message
      (.point (Mark.origin.advance (unassigned n).text.toList).position)) := by
  have chars := toList_unassigned n
  let c := (Cursor.mk (Mark.origin.advance ['x', '=']) (List.replicate n ' ')).skip
  have atEnd : c.rest = [] := skipTrivia_blanks _ n
  have within : c.Within (unassigned n).text.toList :=
    Cursor.Within.skip ⟨['x', '='], chars, rfl⟩
  have shallow : Nesting.tooDeep? (unassigned n).text.toList = none := by
    rw [chars]
    exact Nesting.tooDeepFrom?_blanks 0 _ n
  obtain ⟨missing, failed⟩ := Peg.Runs.expression_fails within atEnd
  obtain ⟨log, run, tried⟩ := Peg.Runs.assigned_nothing rfl failed
  rw [← chars] at run
  exact parse_of_failed_at_end shallow run
    (tried (List.mem_append_right _ (List.mem_singleton_self _))) atEnd

theorem utf8ByteSize_blanks (n : Nat) : (Diagnostic.blanks n).utf8ByteSize = n := by
  rw [← utf8Length_toList, Diagnostic.blanks, String.toList_ofList]
  induction n with
  | zero => rfl
  | succ n ih =>
      rw [List.replicate_succ, utf8Length_cons, ih]
      exact Nat.add_comm 1 n

theorem utf8ByteSize_unassigned (n : Nat) : (unassigned n).text.utf8ByteSize = n + 2 := by
  rw [unassigned, String.utf8ByteSize_append, utf8ByteSize_blanks]
  exact Nat.add_comm 2 n

theorem plain_unassigned {n : Nat} {c : Char} (mem : c ∈ (unassigned n).text.toList) :
    c ≠ '\n' ∧ c ≠ '\r' := by
  rw [toList_unassigned, List.mem_cons, List.mem_cons] at mem
  rcases mem with rfl | rfl | mem
  · decide
  · decide
  · rw [List.eq_of_mem_replicate mem]
    decide

theorem lineBefore_unassigned (n : Nat) :
    lineBefore (unassigned n).text.toList = (unassigned n).text.toList :=
  lineBefore_of_plain fun mem => (plain_unassigned mem).1 rfl

theorem lineAround_unassigned (n : Nat) :
    lineAround (unassigned n).text.toList [] = (unassigned n).text.toList := by
  rw [lineAround, lineBefore_unassigned, List.takeWhile_nil, List.append_nil]
  refine List.rdropWhile_eq_self_iff.2 fun nonempty => ?_
  have last := (plain_unassigned (List.getLast_mem nonempty)).2
  simpa using last

theorem count_unassigned (n : Nat) : (unassigned n).text.toList.count '\n' = 0 :=
  List.count_eq_zero.2 fun mem => (plain_unassigned mem).1 rfl

theorem position_unassigned (n : Nat) :
    (Mark.origin.advance (unassigned n).text.toList).position = ⟨1, UInt32.ofNat (n + 3)⟩ := by
  have column : (lineBefore (unassigned n).text.toList).length = n + 2 := by
    rw [lineBefore_unassigned, toList_unassigned]
    simp
  rw [Mark.advance_origin, count_unassigned]
  exact congrArg (fun length => Position.mk 1 (UInt32.ofNat (length + 1))) column

theorem line?_unassigned (n : Nat) : (unassigned n).line? 1 = some (unassigned n).text := by
  have lines : (unassigned n).text.toList.count '\n' + 1 < UInt32.size := by
    rw [count_unassigned]
    decide
  have found := Source.line?_around (List.append_nil _).symm lines
  rw [count_unassigned, lineAround_unassigned, String.ofList_toList] at found
  exact found

/-- Without a column, no place of the text is pointed at. -/
theorem not_pointsAt_unassigned {n : Nat} {d : Diagnostic} {p : Position} (zero : p.column = 0)
    (placed : d.span = some (.point p)) {front rest : List Char}
    (split : (unassigned n).text.toList = front ++ rest)
    (start : p = (unassigned n).position (utf8Length front)) :
    ¬ d.PointsAt (Diagnostic.gutter p) front rest := by
  intro points
  obtain ⟨under, behind⟩ := Diagnostic.PointsAt.column placed points
  have noIndent : p.column.toNat - 1 = 0 := by simp [zero]
  rw [show (Span.point p).start = p from rfl, noIndent] at under behind
  cases rest with
  | nil =>
      rw [List.append_nil] at split
      have empty := List.length_eq_zero_iff.1 (Nat.eq_zero_of_le_zero (behind rfl))
      rw [← split, lineAround_unassigned, toList_unassigned] at empty
      cases empty
  | cons c rest =>
      have first := under c rfl
      have plain : '\n' ∉ front := fun mem =>
        (plain_unassigned (split ▸ List.mem_append_left _ mem)).1 rfl
      rw [lineBefore_of_plain plain] at first
      obtain rfl := List.length_eq_zero_iff.1 first.symm
      rw [start, Source.position_of_front List.nil_prefix] at zero
      exact absurd zero (by decide)

/-! ## What stops a script -/

variable {σ : Type}

/-- The run of a script stops with an error: it cannot be read, or its evaluation fails. -/
inductive StopsWith (host : Host σ) (limits : Limits) (s : State σ) (source : Source) :
    ScriptError → Prop where
  | parse {e : ParseError} (refused : source.parse = .error e) :
      StopsWith host limits s source (.parse e)
  | eval {program : Program} {e : EvalError} {s' : State σ} (parsed : source.parse = .ok program)
      (ended : Ends host limits program s (.error e) s') :
      StopsWith host limits s source (.eval source.name e s'.errorSpan
        (s'.errorSpan.bind fun span => source.line? span.start.line))

/-- What is reported for an evaluation from the command line stops the run of the script. -/
theorem stopsWith_of_evaluate {limits : Limits} {source : Source} {program : Program}
    {e : ScriptError} (parsed : source.parse = .ok program)
    (failed : (evaluate limits source program).2 = some e) :
    StopsWith noHost limits { host := () } source e := by
  unfold evaluate at failed
  split at failed
  · cases failed
  · cases failed
  · next error s ran =>
      cases failed
      exact .eval parsed ⟨limits.rounds, ran⟩

/-- A run from the command line that fails reports what stops the run of the script. -/
theorem exists_stopsWith_of_runScript {args : Arguments} {path : String}
    {content : Except ReadError ByteArray} {source : Source}
    (read : sourceOf path content = .ok source)
    (failed : (runScript args path content).exitCode ≠ 0) :
    ∃ e shown, StopsWith noHost args.limits { host := () } source e ∧
      (runScript args path content).stderr = shown ++ report args.json e := by
  rw [runScript, read] at failed ⊢
  dsimp only at failed ⊢
  cases parsed : source.parse with
  | error e => exact ⟨.parse e, "", .parse parsed, rfl⟩
  | ok program =>
      rw [parsed] at failed
      dsimp only at failed ⊢
      cases ran : evaluate args.limits source program with
      | mk stdout stopped =>
          rw [ran] at failed
          cases stopped with
          | none => exact absurd rfl failed
          | some e =>
              exact ⟨e, _, stopsWith_of_evaluate parsed (congrArg Prod.snd ran), rfl⟩

/--
The caret points at the error.  Let a text of less than `2 ^ 32 - 1` bytes be
refused, or let its evaluation fail at a place that is known.  This place is
the position of a byte offset between two parts of the text.  The diagnostic
quotes the line around it, and what is shown ends with this line behind its
number and with a caret below it.  The caret stands under the character at the
offset, whatever the width of the number and of the characters in front; at
the end of the text it stands behind the line.
-/
theorem caret_points_at_error {source : Source}
    (short : source.text.utf8ByteSize + 1 < UInt32.size)
    {host : Host σ} {limits : Limits} {s : State σ} {e : ScriptError}
    (stopped : StopsWith host limits s source e) {span : Span}
    (placed : e.diagnostic.span = some span) :
    ∃ front rest, source.text.toList = front ++ rest ∧
      span.start = source.position (utf8Length front) ∧
      e.diagnostic.PointsAt (toString span.start.line ++ " | ") front rest := by
  cases stopped with
  | parse refused =>
      obtain ⟨reported, quoted⟩ := Source.reported_of_refused refused
      cases placed
      exact Diagnostic.exists_pointsAt short reported rfl (congrArg some quoted)
  | @eval program e s' parsed ended =>
      change s'.errorSpan = some span at placed
      have visible := ended.visible parsed placed
      obtain ⟨line, found⟩ := visible.exists_line short
      refine Diagnostic.exists_pointsAt short (.inl visible) placed ?_
      change s'.errorSpan.bind _ = _
      rw [placed, Option.bind_some, found, Option.getD_some]

def missingBehindTab : Source :=
  ⟨"tab", "\n\n\n\n\n\n\n\n\n\tx = 'é€' + miss; // ü\r\n"⟩

/-- The caret stands under the missing name. -/
theorem caret_points_at_error_missing :
    ∃ e span front rest, missingBehindTab.text.utf8ByteSize + 1 < UInt32.size ∧
      StopsWith noHost {} { host := () } missingBehindTab e ∧ e.diagnostic.span = some span ∧
      span.start = ⟨10, 13⟩ ∧ missingBehindTab.text.toList = front ++ rest ∧
      span.start = missingBehindTab.position (utf8Length front) ∧
      e.diagnostic.PointsAt (toString span.start.line ++ " | ") front rest := by
  have ran : missingBehindTab.parse.toOption.any (fun program =>
      (evaluate {} missingBehindTab program).2.any fun e =>
        e.diagnostic.span.map Span.start == some ⟨10, 13⟩) = true := by
    decide +kernel
  cases parsed : missingBehindTab.parse with
  | error e =>
      rw [parsed] at ran
      cases ran
  | ok program =>
      rw [parsed] at ran
      obtain ⟨e, failed, place⟩ :=
        (Option.any_eq_true _ (evaluate {} missingBehindTab program).2).1 ran
      obtain ⟨span, placed, start⟩ := Option.map_eq_some_iff.1 (eq_of_beq place)
      have stopped := stopsWith_of_evaluate parsed failed
      obtain ⟨front, rest, located⟩ := caret_points_at_error (by decide) stopped placed
      exact ⟨e, span, front, rest, by decide, stopped, placed, start, located⟩

/-- An assignment of nothing in so many blanks that the text has a byte less than `2 ^ 32`. -/
def farEnd : Source := unassigned (UInt32.size - 3)

/--
At the end of a text of `2 ^ 32 - 1` characters in one line the column has no number
of 32 bits.  The caret then stands under the first character and not behind the line.
-/
theorem caret_misses_farEnd :
    ∃ e span, farEnd.text.utf8ByteSize < UInt32.size ∧
      StopsWith noHost {} { host := () } farEnd e ∧ e.diagnostic.span = some span ∧
      EndsInLines e.diagnostic.render ("1 | " ++ farEnd.text) "  | ^" ∧
      ∀ front rest, farEnd.text.toList = front ++ rest →
        span.start = farEnd.position (utf8Length front) →
        ¬ e.diagnostic.PointsAt (toString span.start.line ++ " | ") front rest := by
  rw [farEnd]
  -- the text is too long to be evaluated
  have total : UInt32.size - 3 + 3 = UInt32.size := by decide
  generalize UInt32.size - 3 = n at total ⊢
  have noColumn : UInt32.ofNat UInt32.size = 0 := by decide
  obtain ⟨message, refused⟩ := unassigned_refused n
  rw [position_unassigned, total, noColumn] at refused
  let e : ScriptError := .parse (.report (unassigned n) message (.point ⟨1, 0⟩))
  have placed : e.diagnostic.span = some (.point ⟨1, 0⟩) := rfl
  refine ⟨e, _, ?_, .parse refused, placed, ?_, ?_⟩
  · rw [utf8ByteSize_unassigned, ← total]
    exact Nat.lt_succ_self (n + 2)
  · have quoted : e.diagnostic.sourceLine = some (unassigned n).text := by
      have found := congrArg (Option.getD · "") (line?_unassigned n)
      exact congrArg some found
    have drawn :=
      Diagnostic.render_endsInLines placed quoted fun mem => (plain_unassigned mem).1 rfl
    have gutter : Diagnostic.gutter ⟨1, 0⟩ = "1 | " := by decide
    have caret : Diagnostic.indent ⟨1, 0⟩ ++ "^" = "  | ^" := by decide
    rwa [show (Span.point ⟨1, 0⟩).start = ⟨1, 0⟩ from rfl, gutter, caret] at drawn
  · intro front rest split start
    exact not_pointsAt_unassigned rfl placed split start

end TinyScript
