import TinyScript.Proofs.Spreading

/-!
# The grammar as data

The rules of the grammar are parsing expressions over tokens.  A run of an
expression at a cursor succeeds at another cursor or fails, and it has a log of
all rules that failed on the way, each with the cursor at which it was tried.
Runs are unique.  Trivia are skipped between the parts of a sequence and between
the items of a repetition.
-/

namespace TinyScript

inductive Terminal where
  | name
  | literal (kind : LiteralKind)
  | ifWord
  | elseWord
  | loopWord
  | operator (op : BinOp)
  | mark (x : Char)

namespace Terminal

def scan : Terminal → Lexeme.Scan
  | name => Lexeme.identifier
  | literal kind => Grammar.literalScan kind
  | ifWord => Lexeme.word "if"
  | elseWord => Lexeme.word "else"
  | loopWord => Lexeme.oneOf ["while", "until"]
  | operator op => Lexeme.exactly op.symbol.toList
  | mark x => Lexeme.exactly [x]

def Accepts : Terminal → Token → Prop
  | name, t => ∃ n, IsName n ∧ t = .name n
  | literal kind, t => ∃ l : Literal, l.kind = kind ∧ l.IsLexical ∧ t = .literal l
  | ifWord, t => t = .keyword "if"
  | elseWord, t => t = .keyword "else"
  | loopWord, t => ∃ kind : LoopKind, t = .keyword kind.keyword
  | operator op, t => t = .operator op
  | mark x, t => t = .mark x

/-- What is scanned is a token of the kind, and a keyword is not continued. -/
theorem accepts_of_scan {terminal : Terminal} {chars w s : List Char}
    (found : terminal.scan chars = some (w, s)) :
    ∃ t : Token, terminal.Accepts t ∧ t.text = w ∧ w ≠ [] ∧ chars = w ++ s ∧
      (t.isKeyword = true → Lexeme.continuesWord s = false) := by
  cases terminal with
  | name =>
      obtain ⟨split, isName, _⟩ := Lexeme.identifier_eq_some_iff.1 found
      have lexical : (Token.name (String.ofList w)).Lexical := isName
      have spelled : (Token.name (String.ofList w)).text = w := String.toList_ofList
      exact ⟨.name (String.ofList w), ⟨_, isName, rfl⟩, spelled, spelled ▸ lexical.solid.1, split,
        fun impossible => nomatch impossible⟩
  | literal kind =>
      have spelled : (String.ofList w).toList = w := String.toList_ofList
      have found : Grammar.literalScan (Literal.mk kind (String.ofList w)).kind chars =
          some ((Literal.mk kind (String.ofList w)).text.toList, s) := by
        rw [spelled]
        exact found
      obtain ⟨lexical, split⟩ := Grammar.isLexical_of_scan found
      refine ⟨.literal ⟨kind, String.ofList w⟩, ⟨_, rfl, lexical, rfl⟩, spelled, ?_, ?_,
        fun impossible => nomatch impossible⟩
      · exact spelled ▸ lexical.nonempty
      · exact spelled ▸ split
  | ifWord =>
      obtain ⟨rfl, split, ends⟩ := Lexeme.word_eq_some_iff.1 found
      exact ⟨.keyword "if", rfl, rfl, List.cons_ne_nil _ _, split, fun _ => ends⟩
  | elseWord =>
      obtain ⟨rfl, split, ends⟩ := Lexeme.word_eq_some_iff.1 found
      exact ⟨.keyword "else", rfl, rfl, List.cons_ne_nil _ _, split, fun _ => ends⟩
  | loopWord =>
      obtain ⟨mem, split, ends⟩ := (Lexeme.oneOf_eq_some_iff Lexeme.wordy_loops).1 found
      have spelled : (String.ofList w).toList = w := String.toList_ofList
      simp only [List.mem_cons, List.not_mem_nil, or_false] at mem
      rcases mem with same | same
      · rw [same] at spelled
        exact ⟨.keyword "while", ⟨.whileTrue, rfl⟩, spelled, spelled ▸ List.cons_ne_nil _ _, split,
          fun _ => ends⟩
      · rw [same] at spelled
        exact ⟨.keyword "until", ⟨.untilTrue, rfl⟩, spelled, spelled ▸ List.cons_ne_nil _ _, split,
          fun _ => ends⟩
  | operator op =>
      obtain ⟨rfl, split⟩ := Lexeme.exactly_eq_some_iff.1 found
      refine ⟨.operator op, rfl, rfl, ?_, split, fun impossible => nomatch impossible⟩
      cases op <;> exact List.cons_ne_nil _ _
  | mark x =>
      obtain ⟨rfl, split⟩ := Lexeme.exactly_eq_some_iff.1 found
      exact ⟨.mark x, rfl, rfl, List.cons_ne_nil _ _, split, fun impossible => nomatch impossible⟩

end Terminal

inductive Peg where
  /-- Nothing. -/
  | empty
  /-- The end of the text. -/
  | ending
  /-- A token. -/
  | terminal (terminal : Terminal)
  /-- One expression and then another one. -/
  | seq (first second : Peg)
  /-- One expression, or else another one. -/
  | alt (first second : Peg)
  /-- An expression any number of times. -/
  | many (item : Peg)
  /-- An expression any number of times, behind other items. -/
  | more (item : Peg)
  /-- A rule of the grammar. -/
  | rule (rule : Rule)

namespace Peg

def opt (p : Peg) : Peg := .alt p .empty

def mark (x : Char) : Peg := .terminal (.mark x)

/-! ## The rules -/

def operand : Peg :=
  .alt (.rule .constant) (.alt (.rule .call) (.alt (.rule .identifier) (.rule .paren)))

def anyOperator : Peg :=
  .alt (.rule .eq) (.alt (.rule .notEq) (.alt (.rule .greater) (.alt (.rule .less)
    (.alt (.rule .add) (.alt (.rule .sub) (.rule .mul))))))

def arguments : Peg :=
  .seq (.rule .expression) (.many (.seq (mark ',') (.rule .expression)))

def simple : Peg := .seq (.alt (.rule .assignment) (.rule .call)) (mark ';')

def line : Peg := .alt simple (.alt (.rule .branch) (.rule .loop))

/-- What follows the keyword of a branch or a loop. -/
def guarded : Peg :=
  .seq (.rule .expression)
    (.seq (.rule .block) (opt (.seq (.rule .elseKeyword) (.rule .alternative))))

def body : Rule → Peg
  | .endOfInput => .ending
  | .program => .seq .empty (.seq (.many line) (.rule .endOfInput))
  | .block => .seq (mark '\x7b') (.seq (.many line) (mark '\x7d'))
  | .branch => .seq (.rule .ifKeyword) guarded
  | .loop => .seq (.rule .loopKeyword) guarded
  | .alternative => .alt (.rule .block) (.rule .branch)
  | .loopKeyword => .terminal .loopWord
  | .ifKeyword => .terminal .ifWord
  | .elseKeyword => .terminal .elseWord
  | .assignment => .seq (.rule .identifier) (.seq (mark '=') (.rule .expression))
  | .call => .seq (.rule .identifier) (.seq (mark '(') (.seq (opt arguments) (mark ')')))
  | .expression => .seq operand (.many (.seq anyOperator operand))
  | .paren => .seq (mark '(') (.seq (.rule .expression) (mark ')'))
  | .eq => .terminal (.operator .eq)
  | .notEq => .terminal (.operator .notEq)
  | .greater => .terminal (.operator .greater)
  | .less => .terminal (.operator .less)
  | .add => .terminal (.operator .add)
  | .sub => .terminal (.operator .sub)
  | .mul => .terminal (.operator .mul)
  | .constant =>
      .alt (.rule .float) (.alt (.rule .integer) (.alt (.rule .text)
        (.alt (.rule .boolean) (.rule .null))))
  | .float => .terminal (.literal .float)
  | .integer => .terminal (.literal .integer)
  | .text => .terminal (.literal .text)
  | .boolean => .terminal (.literal .boolean)
  | .null => .terminal (.literal .null)
  | .identifier => .terminal .name

/-! ## Runs -/

/--
A run of an expression at a cursor: the cursor behind what it matches, if it
matches, and the rules that failed on the way with the cursors at which they
were tried.
-/
inductive Runs : Peg → Cursor → Option Cursor → List (Rule × Cursor) → Prop where
  | empty (c : Cursor) : Runs .empty c (some c) []
  | ending {c : Cursor} (atEnd : c.rest = []) : Runs .ending c (some c) []
  | noEnding {c : Cursor} (ahead : c.rest ≠ []) : Runs .ending c none []
  | token {terminal : Terminal} {c : Cursor} {w s : List Char}
      (found : terminal.scan c.rest = some (w, s)) :
      Runs (.terminal terminal) c (some ⟨c.mark.advance w, s⟩) []
  | noToken {terminal : Terminal} {c : Cursor} (missing : terminal.scan c.rest = none) :
      Runs (.terminal terminal) c none []
  | seqFails {p q : Peg} {c : Cursor} {log : List (Rule × Cursor)} (first : Runs p c none log) :
      Runs (.seq p q) c none log
  | seq {p q : Peg} {c c₁ : Cursor} {out : Option Cursor} {log log' : List (Rule × Cursor)}
      (first : Runs p c (some c₁) log) (second : Runs q c₁.skip out log') :
      Runs (.seq p q) c out (log ++ log')
  | first {p q : Peg} {c c' : Cursor} {log : List (Rule × Cursor)}
      (matched : Runs p c (some c') log) : Runs (.alt p q) c (some c') log
  | second {p q : Peg} {c : Cursor} {out : Option Cursor} {log log' : List (Rule × Cursor)}
      (failed : Runs p c none log) (other : Runs q c out log') :
      Runs (.alt p q) c out (log ++ log')
  | manyNone {p : Peg} {c : Cursor} {log : List (Rule × Cursor)} (failed : Runs p c none log) :
      Runs (.many p) c (some c) log
  | many {p : Peg} {c c₁ : Cursor} {out : Option Cursor} {log log' : List (Rule × Cursor)}
      (item : Runs p c (some c₁) log) (others : Runs (.more p) c₁ out log') :
      Runs (.many p) c out (log ++ log')
  | moreNone {p : Peg} {c : Cursor} {log : List (Rule × Cursor)}
      (failed : Runs p c.skip none log) : Runs (.more p) c (some c) log
  | more {p : Peg} {c c₁ : Cursor} {out : Option Cursor} {log log' : List (Rule × Cursor)}
      (item : Runs p c.skip (some c₁) log) (others : Runs (.more p) c₁ out log') :
      Runs (.more p) c out (log ++ log')
  | rule {r : Rule} {c c' : Cursor} {log : List (Rule × Cursor)}
      (matched : Runs (body r) c (some c') log) : Runs (.rule r) c (some c') log
  | ruleFails {r : Rule} {c : Cursor} {log : List (Rule × Cursor)}
      (failed : Runs (body r) c none log) : Runs (.rule r) c none (log ++ [(r, c)])

def Matches (p : Peg) (c c' : Cursor) : Prop := ∃ log, Runs p c (some c') log

variable {p : Peg} {c c' : Cursor} {out : Option Cursor} {log : List (Rule × Cursor)}

/-- An expression has one run at a cursor at most. -/
theorem Runs.unique (run : Runs p c out log) {out' : Option Cursor}
    {log' : List (Rule × Cursor)} (other : Runs p c out' log') : out = out' ∧ log = log' := by
  induction run generalizing out' log' with
  | empty c =>
      cases other
      exact ⟨rfl, rfl⟩
  | ending atEnd =>
      cases other with
      | ending _ => exact ⟨rfl, rfl⟩
      | noEnding ahead => exact absurd atEnd ahead
  | noEnding ahead =>
      cases other with
      | ending atEnd => exact absurd atEnd ahead
      | noEnding _ => exact ⟨rfl, rfl⟩
  | token found =>
      cases other with
      | token found' =>
          cases found.symm.trans found'
          exact ⟨rfl, rfl⟩
      | noToken missing => cases found.symm.trans missing
  | noToken missing =>
      cases other with
      | token found => cases missing.symm.trans found
      | noToken _ => exact ⟨rfl, rfl⟩
  | seqFails first ih =>
      cases other with
      | seqFails first' => exact ih first'
      | seq first' _ => cases (ih first').1
  | seq first second ih ih' =>
      cases other with
      | seqFails first' => cases (ih first').1
      | seq first' second' =>
          obtain ⟨same, rfl⟩ := ih first'
          cases same
          obtain ⟨rfl, rfl⟩ := ih' second'
          exact ⟨rfl, rfl⟩
  | first matched ih =>
      cases other with
      | first matched' => exact ih matched'
      | second failed _ => cases (ih failed).1
  | second failed other₀ ih ih' =>
      cases other with
      | first matched => cases (ih matched).1
      | second failed' other' =>
          obtain ⟨_, rfl⟩ := ih failed'
          obtain ⟨rfl, rfl⟩ := ih' other'
          exact ⟨rfl, rfl⟩
  | manyNone failed ih =>
      cases other with
      | manyNone failed' => exact ⟨rfl, (ih failed').2⟩
      | many item _ => cases (ih item).1
  | many item others ih ih' =>
      cases other with
      | manyNone failed => cases (ih failed).1
      | many item' others' =>
          obtain ⟨same, rfl⟩ := ih item'
          cases same
          obtain ⟨rfl, rfl⟩ := ih' others'
          exact ⟨rfl, rfl⟩
  | moreNone failed ih =>
      cases other with
      | moreNone failed' => exact ⟨rfl, (ih failed').2⟩
      | more item _ => cases (ih item).1
  | more item others ih ih' =>
      cases other with
      | moreNone failed => cases (ih failed).1
      | more item' others' =>
          obtain ⟨same, rfl⟩ := ih item'
          cases same
          obtain ⟨rfl, rfl⟩ := ih' others'
          exact ⟨rfl, rfl⟩
  | rule matched ih =>
      cases other with
      | rule matched' => exact ih matched'
      | ruleFails failed => cases (ih failed).1
  | ruleFails failed ih =>
      cases other with
      | rule matched => cases (ih matched).1
      | ruleFails failed' =>
          obtain ⟨_, rfl⟩ := ih failed'
          exact ⟨rfl, rfl⟩

theorem Runs.of_skip (run : Runs (.seq .empty p) c out log) : Runs p c.skip out log := by
  cases run with
  | seqFails first => cases first
  | seq first second =>
      cases first
      exact second

/-- Every rule of the log fails where it was tried. -/
theorem Runs.fails_of_mem (run : Runs p c out log) {r : Rule} {d : Cursor} (mem : (r, d) ∈ log) :
    ∃ log', Runs (.rule r) d none log' := by
  induction run with
  | empty | ending | noEnding | token | noToken => cases mem
  | seqFails _ ih | first _ ih | manyNone _ ih | moreNone _ ih | rule _ ih => exact ih mem
  | seq _ _ ih ih' | second _ _ ih ih' | many _ _ ih ih' | more _ _ ih ih' =>
      rcases List.mem_append.1 mem with mem | mem
      · exact ih mem
      · exact ih' mem
  | ruleFails failed ih =>
      rcases List.mem_append.1 mem with mem | mem
      · exact ih mem
      · cases List.mem_singleton.1 mem
        exact ⟨_, .ruleFails failed⟩

/-- A rule of the log does not match where it was tried. -/
theorem Runs.not_matches (run : Runs p c out log) {r : Rule} {d d' : Cursor}
    (mem : (r, d) ∈ log) : ¬ Matches (.rule r) d d' := by
  rintro ⟨_, matched⟩
  obtain ⟨_, failed⟩ := run.fails_of_mem mem
  cases (failed.unique matched).1

theorem Runs.leads (run : Runs p c out log) : ∀ c' ∈ out, ∃ w, c.Leads w c' := by
  induction run with
  | empty c | ending | manyNone | moreNone =>
      rintro c' ⟨⟩
      exact ⟨[], rfl, rfl⟩
  | token found =>
      rintro c' ⟨⟩
      obtain ⟨_, _, _, _, split, _⟩ := Terminal.accepts_of_scan found
      exact ⟨_, split, rfl⟩
  | noEnding | noToken | seqFails | ruleFails => exact fun _ none => nomatch none
  | @seq p q c c₁ out log log' first second ih ih' =>
      intro c' mem
      obtain ⟨u, leads⟩ := ih c₁ rfl
      obtain ⟨v, skipped⟩ := c₁.leads_skip
      obtain ⟨w, leads'⟩ := ih' c' mem
      exact ⟨_, leads.trans (skipped.trans leads')⟩
  | first matched ih | rule matched ih => exact ih
  | second failed other ih ih' => exact ih'
  | @many p c c₁ out log log' item others ih ih' =>
      intro c' mem
      obtain ⟨u, leads⟩ := ih c₁ rfl
      obtain ⟨w, leads'⟩ := ih' c' mem
      exact ⟨_, leads.trans leads'⟩
  | @more p c c₁ out log log' item others ih ih' =>
      intro c' mem
      obtain ⟨v, skipped⟩ := c.leads_skip
      obtain ⟨u, leads⟩ := ih c₁ rfl
      obtain ⟨w, leads'⟩ := ih' c' mem
      exact ⟨_, skipped.trans (leads.trans leads')⟩

/-- Whether an expression matches nothing without a token. -/
def solid : Peg → Bool
  | .empty | .ending | .many _ | .more _ => false
  | .terminal _ => true
  | .seq p q => p.solid || q.solid
  | .alt p q => p.solid && q.solid
  | .rule r => r ≠ .program && r ≠ .endOfInput

theorem solid_body {r : Rule} (isSolid : (Peg.rule r).solid = true) : (body r).solid = true := by
  cases r with
  | program => cases isSolid
  | endOfInput => cases isSolid
  | _ => rfl

end Peg

theorem Cursor.Leads.length_le {c c' : Cursor} {w : List Char} (leads : c.Leads w c') :
    c'.rest.length ≤ c.rest.length := by
  rw [leads.1, List.length_append]
  exact Nat.le_add_left _ _

theorem Cursor.skip_length_le (c : Cursor) : c.skip.rest.length ≤ c.rest.length := by
  obtain ⟨w, leads⟩ := c.leads_skip
  exact leads.length_le

namespace Peg

/-- A solid expression takes a character at least. -/
theorem Runs.length_lt {p : Peg} {c : Cursor} {out : Option Cursor} {log : List (Rule × Cursor)}
    (run : Runs p c out log) (isSolid : p.solid = true) :
    ∀ c' ∈ out, c'.rest.length < c.rest.length := by
  induction run with
  | empty | ending | manyNone | many | moreNone | more => cases isSolid
  | noEnding | noToken | seqFails | ruleFails => exact fun _ none => nomatch none
  | token found =>
      rintro c' ⟨⟩
      obtain ⟨_, _, _, visible, split, _⟩ := Terminal.accepts_of_scan found
      have some := List.length_pos_iff.2 visible
      rw [split, List.length_append]
      exact Nat.lt_add_of_pos_left some
  | @seq p q c c₁ out log log' first second ih ih' =>
      intro c' mem
      obtain ⟨u, leads⟩ := first.leads c₁ rfl
      obtain ⟨v, leads'⟩ := second.leads c' mem
      have before := leads.length_le
      have between := c₁.skip_length_le
      have behind := leads'.length_le
      rcases Bool.or_eq_true_iff.1 isSolid with isSolid | isSolid
      · have shorter := ih isSolid c₁ rfl
        omega
      · have shorter := ih' isSolid c' mem
        omega
  | first matched ih => exact ih (Bool.and_eq_true_iff.1 isSolid).1
  | second failed other ih ih' => exact ih' (Bool.and_eq_true_iff.1 isSolid).2
  | rule matched ih => exact ih (solid_body isSolid)

end Peg

end TinyScript
