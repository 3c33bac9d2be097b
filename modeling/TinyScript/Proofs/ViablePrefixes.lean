import TinyScript.Proofs.Attempts
import TinyScript.Proofs.Concatenation
import TinyScript.Proofs.Derivations

/-!
# Viable prefixes

Wherever a rule of the grammar is tried, the text in front of it consists of
tokens and trivia, and these tokens with those of the rule can be completed to a
program.  This is kept along all runs.  In front of a syntax error, therefore,
there is a text that continues to a script.
-/

namespace TinyScript

/--
The front of a text, up to and with a last token.  The flag tells whether this
token is a keyword.
-/
inductive Fronts : (afterKeyword : Bool) → List Token → List Char → Prop where
  | start : Fronts false [] []
  | token {afterKeyword : Bool} {us : List Token} {front w : List Char} {t : Token}
      (fronts : Fronts afterKeyword us front) (gap : Trivia false w)
      (apart : afterKeyword = true → t.startsWord = true → w ≠ []) :
      Fronts t.isKeyword (us ++ [t]) (front ++ (w ++ t.text))

/-- What follows the front of a text renders the tokens that are left. -/
theorem Fronts.renders {afterKeyword : Bool} {us vs : List Token} {front s : List Char}
    (fronts : Fronts afterKeyword us front) (rendered : Renders afterKeyword vs s) :
    Renders false (us ++ vs) (front ++ s) := by
  induction fronts generalizing vs s with
  | start => exact rendered
  | @token _ us front w t fronts gap apart ih =>
      have further := ih (.token gap apart rendered)
      simpa using further

theorem Renders.behindGap {vs : List Token} {w s : List Char} (rendered : Renders false vs s)
    (gap : Trivia false w) (visible : w ≠ []) (afterKeyword : Bool) :
    Renders afterKeyword vs (w ++ s) := by
  cases rendered with
  | ending others => exact .ending (gap.append others)
  | @token _ t ts w' s others apart rest =>
      rw [← List.append_assoc]
      refine .token (gap.append others) (fun _ _ empty => ?_) rest
      exact visible (List.append_eq_nil_iff.1 empty).1

/-- The tokens in front of a place of a text, with trivia behind the last of them. -/
def Cursor.Follows (c : Cursor) (text : List Char) (us : List Token) : Prop :=
  ∃ (afterKeyword : Bool) (front w : List Char),
    text = front ++ (w ++ c.rest) ∧ Fronts afterKeyword us front ∧ Trivia c.rest.isEmpty w ∧
      (afterKeyword = true → w = [] → Lexeme.continuesWord c.rest = false)

namespace Cursor.Follows

variable {text : List Char} {us : List Token} {c : Cursor}

theorem ofText (text : String) : (Cursor.ofText text).Follows text.toList [] :=
  ⟨false, [], [], rfl, .start, .nil, fun impossible => nomatch impossible⟩

theorem skip (follows : c.Follows text us) : c.skip.Follows text us := by
  obtain ⟨afterKeyword, front, w, split, fronts, gap, apart⟩ := follows
  obtain ⟨u, splitRest, skipped⟩ := c.skip_splits
  cases ahead : c.rest with
  | nil =>
      -- the trivia may be a comment without a newline, behind which nothing can be added
      rw [ahead] at splitRest gap apart split
      obtain ⟨rfl, atEnd⟩ := List.append_eq_nil_iff.1 splitRest.symm
      refine ⟨afterKeyword, front, w, ?_, fronts, ?_, ?_⟩ <;> rwa [atEnd]
  | cons d more =>
      rw [ahead] at gap
      refine ⟨afterKeyword, front, w ++ u, ?_, fronts, gap.append skipped, fun keyword none => ?_⟩
      · rw [split, splitRest, List.append_assoc]
      · obtain ⟨rfl, rfl⟩ := List.append_eq_nil_iff.1 none
        rw [List.nil_append] at splitRest
        rw [← splitRest]
        exact apart keyword rfl

theorem token (follows : c.Follows text us) {t : Token} {c' : Cursor} (visible : t.text ≠ [])
    (split : c.rest = t.text ++ c'.rest)
    (ends : t.isKeyword = true → Lexeme.continuesWord c'.rest = false) :
    c'.Follows text (us ++ [t]) := by
  obtain ⟨afterKeyword, front, w, whole, fronts, gap, apart⟩ := follows
  have ahead : c.rest.isEmpty = false := by
    rw [split, List.isEmpty_eq_false_iff]
    exact List.append_ne_nil_of_left_ne_nil visible _
  rw [ahead] at gap
  have kept : afterKeyword = true → t.startsWord = true → w ≠ [] := by
    intro keyword starts none
    have stops := apart keyword none
    rw [split, continuesWord_append visible] at stops
    exact Bool.false_ne_true (stops.symm.trans starts)
  refine ⟨t.isKeyword, front ++ (w ++ t.text), [], ?_, .token fronts gap kept, .nil,
    fun keyword _ => ends keyword⟩
  rw [whole, split]
  simp

/-- Behind a newline any tokens may follow. -/
theorem completes (follows : c.Follows text us) (vs : List Token) :
    ∃ front more, text = front ++ c.rest ∧ Renders false (us ++ vs) (front ++ more) := by
  obtain ⟨afterKeyword, front, w, whole, fronts, gap, _⟩ := follows
  -- the newline ends a comment and keeps the last token apart from what follows
  refine ⟨front ++ w, ['\n'] ++ vs.flatMap fun t => ' ' :: t.text, ?_, ?_⟩
  · rw [whole, List.append_assoc]
  · have visible : w ++ ['\n'] ≠ [] := List.append_ne_nil_of_right_ne_nil _ (List.cons_ne_nil _ _)
    have rendered := fronts.renders
      ((renders_spaced false vs).behindGap gap.newline visible afterKeyword)
    simpa using rendered

end Cursor.Follows

namespace Peg

/-- Behind these tokens all that the expression stands for can be completed to a program. -/
def Hosts (us : List Token) (p : Peg) : Prop :=
  ∀ ts, p.Yields ts → ∃ vs, Rule.program.Yields (us ++ (ts ++ vs))

namespace Hosts

variable {us ts : List Token} {p q : Peg}

theorem program : Hosts [] (.rule .program) := by
  intro ts yields
  refine ⟨[], ?_⟩
  rw [List.nil_append, List.append_nil]
  exact yields

theorem mono (hosts : Hosts us p) (part : ∀ ts, q.Yields ts → p.Yields ts) : Hosts us q :=
  fun ts yields => hosts ts (part ts yields)

theorem first (hosts : Hosts us (.seq p q)) : Hosts us p := by
  intro ts yields
  obtain ⟨more, yields'⟩ := exists_yields q
  obtain ⟨vs, whole⟩ := hosts _ ⟨ts, more, yields, yields', rfl⟩
  refine ⟨more ++ vs, ?_⟩
  rwa [← List.append_assoc ts]

theorem second (hosts : Hosts us (.seq p q)) (yields : p.Yields ts) : Hosts (us ++ ts) q := by
  intro more yields'
  obtain ⟨vs, whole⟩ := hosts _ ⟨ts, more, yields, yields', rfl⟩
  refine ⟨vs, ?_⟩
  rwa [List.append_assoc us, ← List.append_assoc ts]

theorem item (hosts : Hosts us (.more p)) : Hosts us p :=
  hosts.mono fun ts yields => ⟨[ts], by simpa using yields, by simp⟩

theorem others (hosts : Hosts us (.more p)) (yields : p.Yields ts) :
    Hosts (us ++ ts) (.more p) := by
  intro more yields'
  obtain ⟨vs, whole⟩ := hosts _ (yields_cons ts more yields yields')
  refine ⟨vs, ?_⟩
  rwa [List.append_assoc us, ← List.append_assoc ts]

theorem rule {r : Rule} (hosts : Hosts us (.rule r)) : Hosts us (body r) :=
  hosts.mono fun _ => yields_rule

end Hosts

/--
What a run keeps: the tokens in front of every rule that failed host this rule,
and what is matched are tokens that the expression stands for.
-/
structure Viable (text : List Char) (us : List Token) (p : Peg) (out : Option Cursor)
    (log : List (Rule × Cursor)) : Prop where
  tried : ∀ a ∈ log, ∃ vs, a.2.Follows text vs ∧ Hosts vs (.rule a.1)
  reached : ∀ c' ∈ out, ∃ ts, p.Yields ts ∧ c'.Follows text (us ++ ts)

namespace Viable

variable {text : List Char} {us : List Token} {p q : Peg} {c : Cursor} {out : Option Cursor}
  {log log' : List (Rule × Cursor)}

theorem none : Viable text us p Option.none [] :=
  ⟨List.forall_mem_nil _, fun _ none => nomatch none⟩

theorem fails (viable : Viable text us p out log) : Viable text us q Option.none log :=
  ⟨viable.tried, fun _ none => nomatch none⟩

theorem stays (viable : Viable text us q out log) (yields : p.Yields [])
    (follows : c.Follows text us) : Viable text us p (some c) log := by
  refine ⟨viable.tried, ?_⟩
  rintro c' ⟨⟩
  refine ⟨[], yields, ?_⟩
  rwa [List.append_nil]

theorem mono (viable : Viable text us q out log) (part : ∀ ts, q.Yields ts → p.Yields ts) :
    Viable text us p out log := by
  refine ⟨viable.tried, fun c' mem => ?_⟩
  obtain ⟨ts, yields, follows⟩ := viable.reached c' mem
  exact ⟨ts, part ts yields, follows⟩

theorem append (first : Viable text us p (some c) log)
    (second : ∀ ts, p.Yields ts → c.Follows text (us ++ ts) → Viable text (us ++ ts) q out log')
    {r : Peg} (joins : ∀ ts ts', p.Yields ts → q.Yields ts' → r.Yields (ts ++ ts')) :
    Viable text us r out (log ++ log') := by
  obtain ⟨ts, yields, follows⟩ := first.reached c rfl
  obtain ⟨tried, reached⟩ := second ts yields follows
  refine ⟨List.forall_mem_append.2 ⟨first.tried, tried⟩, fun c' mem => ?_⟩
  obtain ⟨ts', yields', follows'⟩ := reached c' mem
  rw [List.append_assoc] at follows'
  exact ⟨ts ++ ts', joins ts ts' yields yields', follows'⟩

end Viable

/-- Runs that begin where their expression is hosted are viable. -/
theorem Runs.viable {text : List Char} {p : Peg} {c : Cursor} {out : Option Cursor}
    {log : List (Rule × Cursor)} (run : Runs p c out log) {us : List Token}
    (follows : c.Follows text us) (hosts : Hosts us p) : Viable text us p out log := by
  -- a part begins behind the tokens of the parts before it, so the tokens in front are general
  induction run generalizing us with
  | empty c | ending => exact (Viable.none (p := .empty)).stays rfl follows
  | noEnding | noToken => exact .none
  | token found =>
      refine ⟨List.forall_mem_nil _, ?_⟩
      rintro c' ⟨⟩
      obtain ⟨t, accepts, rfl, visible, split, ends⟩ := Terminal.accepts_of_scan found
      exact ⟨[t], ⟨t, accepts, rfl⟩, follows.token visible split ends⟩
  | seqFails first ih => exact (ih follows hosts.first).fails
  | seq first second ih ih' =>
      refine (ih follows hosts.first).append (fun ts yields follows' => ?_)
        fun ts ts' yields yields' => ⟨ts, ts', yields, yields', rfl⟩
      exact ih' follows'.skip (hosts.second yields)
  | first matched ih => exact (ih follows (hosts.mono fun _ => .inl)).mono fun _ => .inl
  | @second p q c out log log' failed other ih ih' =>
      have tried := (ih follows (hosts.mono fun _ => .inl)).tried
      have viable : Viable text us (.alt p q) out log' :=
        (ih' follows (hosts.mono fun _ => .inr)).mono fun _ => .inr
      exact ⟨List.forall_mem_append.2 ⟨tried, viable.tried⟩, viable.reached⟩
  | manyNone failed ih =>
      exact (ih follows (Hosts.item hosts)).stays ⟨[], List.forall_mem_nil _, rfl⟩ follows
  | moreNone failed ih =>
      exact (ih follows.skip hosts.item).stays ⟨[], List.forall_mem_nil _, rfl⟩ follows
  | many item others ih ih' =>
      refine (ih follows (Hosts.item hosts)).append (fun ts yields follows' => ?_) yields_cons
      exact ih' follows' (Hosts.others hosts yields)
  | more item others ih ih' =>
      refine (ih follows.skip hosts.item).append (fun ts yields follows' => ?_) yields_cons
      exact ih' follows' (hosts.others yields)
  | rule matched ih => exact (ih follows hosts.rule).mono fun _ => yields_rule
  | ruleFails failed ih =>
      have tried := (ih follows hosts.rule).tried
      refine ⟨List.forall_mem_append.2 ⟨tried, ?_⟩, fun _ none => nomatch none⟩
      exact List.forall_mem_singleton.2 ⟨us, follows, hosts⟩

end Peg

/-! ## Syntax errors -/

/-- A text that renders tokens of a program is matched by the grammar. -/
theorem grammatical_of_renders {ts : List Token} {chars : List Char}
    (yields : Rule.program.Yields ts) (rendered : Renders false ts chars) :
    Grammatical (String.ofList chars) := by
  obtain ⟨ss, shaped, rfl⟩ := yields
  have renderedBy : (Program.mk ss default).RenderedBy (String.ofList chars) := by
    rw [Program.RenderedBy, String.toList_ofList]
    exact rendered
  obtain ⟨program, recognized, _⟩ := recognize_of_rendered shaped renderedBy
  exact grammatical_iff.2 ⟨program, recognized⟩

/-- The text in front of a rule that failed continues to a text that the grammar matches. -/
theorem Peg.Runs.continues {text : String} {out : Option Cursor} {log : List (Rule × Cursor)}
    (run : Runs (.rule .program) (.ofText text) out log) {r : Rule} {c : Cursor}
    (mem : (r, c) ∈ log) :
    ∃ front more, text.toList = front ++ c.rest ∧ Grammatical (String.ofList (front ++ more)) := by
  obtain ⟨us, follows, hosts⟩ := (run.viable (.ofText text) .program).tried (r, c) mem
  obtain ⟨ts, yields⟩ := Peg.exists_yields (.rule r)
  obtain ⟨vs, whole⟩ := hosts ts yields
  obtain ⟨front, more, split, rendered⟩ := follows.completes (ts ++ vs)
  exact ⟨front, more, split, grammatical_of_renders whole rendered⟩

/--
A syntax error never lies behind what could still become a script.  Its offset is
that of a character of the text or of its end, and the text in front of it
continues to a text that the grammar matches.
-/
theorem syntaxError_viable {source : Source}
    (shallow : Nesting.tooDeep? source.text.toList = none)
    (unmatched : ¬ Grammatical source.text) :
    ∃ (frontier : Frontier) (front rest : List Char),
      Program.ofText source.text = .error (.expected frontier) ∧
      source.parse = .error (.report source (Fault.expected frontier).message
        (.point (source.position frontier.mark.offset))) ∧
      source.text.toList = front ++ rest ∧ frontier.mark.offset = utf8Length front ∧
      frontier.mark.offset ≤ source.text.utf8ByteSize ∧
      ∃ more, Grammatical (String.ofList (front ++ more)) := by
  obtain ⟨frontier, log, c, ⟨refused, reported⟩, run, _, within, marked, some, tried⟩ :=
    exists_syntaxError shallow unmatched
  obtain ⟨r, mem⟩ := List.exists_mem_of_ne_nil _ some
  obtain ⟨front, more, split, grammatical⟩ := run.continues (tried r mem)
  have offset : frontier.mark.offset = utf8Length front := by
    obtain ⟨front', split', offset, _⟩ := within.split
    obtain rfl : front = front' := List.append_cancel_right (split.symm.trans split')
    rw [← marked, offset]
  refine ⟨frontier, front, c.rest, refused, reported, split, offset, ?_, more, grammatical⟩
  rw [offset, ← utf8Length_toList, split, utf8Length_append]
  exact Nat.le_add_right _ _

def unfinishedCondition : Source := ⟨"unfinished", "a = 1; if f(x, (1 + // é"⟩

/-- The error lies at the end of the text, which can still become a script. -/
theorem syntaxError_viable_unfinishedCondition :
    ∃ (frontier : Frontier) (front rest more : List Char),
      Nesting.tooDeep? unfinishedCondition.text.toList = none ∧
      ¬ Grammatical unfinishedCondition.text ∧
      Program.ofText unfinishedCondition.text = .error (.expected frontier) ∧
      unfinishedCondition.text.toList = front ++ rest ∧ utf8Length front = 25 ∧
      Grammatical (String.ofList (front ++ more)) := by
  have shallow : Nesting.tooDeep? unfinishedCondition.text.toList = none := by decide +kernel
  have unmatched : ¬ Grammatical unfinishedCondition.text :=
    not_grammatical_of_refused (by decide +kernel)
  obtain ⟨frontier, front, rest, failed, _, split, offset, _, more, grammatical⟩ :=
    @syntaxError_viable unfinishedCondition shallow unmatched
  have computed : (match Program.ofText unfinishedCondition.text with
      | .error (.expected frontier) => frontier.mark.offset
      | _ => 0) = 25 := by
    decide +kernel
  rw [failed] at computed
  exact ⟨frontier, front, rest, more, shallow, unmatched, failed, split, offset ▸ computed,
    grammatical⟩

end TinyScript
