import TinyScript.Proofs.Brackets
import TinyScript.Proofs.Offsets

/-!
# Layouts

A layout says which bytes of a text each part of a program takes.  In a sound
layout the parts inside of another part lie in it one behind the other, and
what is left between them are trivia and tokens other than brackets.  A block,
an expression in parentheses and the arguments of a call begin and end with
brackets of their own, so every bracket of the text belongs to one of them.
-/

namespace TinyScript

/--
What takes a region of a text: the nodes of a program, and the arguments of a
call together with the brackets around them.
-/
inductive Part where
  | name (ident : Ident)
  | expr (e : Expr)
  | args (es : List Expr)
  | stmt (s : Stmt)
  | block (b : Block)
  | branch (b : Branch)
  | program (p : Program)

def Otherwise.parts : Otherwise → List Part
  | .nothing => []
  | .block body => [.block body]
  | .branch b => [.branch b]

namespace Part

/-- The parts directly inside of a part, in the order of the text. -/
def inner : Part → List Part
  | name _ => []
  | expr (.const _ _) => []
  | expr (.ident _ _) => []
  | expr (.call callee es _) => [name callee, args es]
  | expr (.additive left _ right _) => [expr left, expr right]
  | expr (.comparison left _ right _) => [expr left, expr right]
  | expr (.paren inner _) => [expr inner]
  | args es => es.map expr
  | stmt (.assign target value _) => [name target, expr value]
  | stmt (.call callee es _) => [name callee, args es]
  | stmt (.loop _ condition body otherwise _) =>
      expr condition :: block body :: otherwise.parts
  | stmt (.branch b) => [branch b]
  | block b => b.stmts.map stmt
  | branch (.mk condition body otherwise _) => expr condition :: block body :: otherwise.parts
  | program p => p.stmts.map stmt

def span? : Part → Option Span
  | name ident => some ident.span
  | expr e => some e.span
  | args _ => none
  | stmt s => some s.span
  | block b => some b.span
  | branch b => some b.span
  | program p => some p.span

def isBinary : Part → Bool
  | expr (.additive _ _ _ _) => true
  | expr (.comparison _ _ _ _) => true
  | _ => false

def brackets? : Part → Option (Char × Char)
  | expr (.paren _ _) => some ('(', ')')
  | args _ => some ('(', ')')
  | block _ => some ('\x7b', '\x7d')
  | _ => none

/-- How many bytes the bracket takes that a part begins with, and the one that it ends with. -/
def margin (part : Part) : Nat := if part.brackets?.isSome then 1 else 0

/-- How the characters of a part begin and end; names and literals are spelled out. -/
def Spelled : Part → List Char → Prop
  | name ident, chars => chars = ident.name.toList
  | expr (.const literal _), chars => chars = literal.text.toList
  | expr (.ident word _), chars => chars = word.toList
  | expr (.call callee _ _), chars => ∃ middle, chars = callee.name.toList ++ middle ++ [')']
  | stmt (.call callee _ _), chars => ∃ middle, chars = callee.name.toList ++ middle ++ [')']
  | part, chars => ∀ pair ∈ part.brackets?, ∃ middle, chars = pair.1 :: (middle ++ [pair.2])

/-- A part in brackets is spelled by them and by anything between them. -/
theorem of_brackets {part : Part} {x y : Char} (brackets : part.brackets? = some (x, y)) :
    ((x = '(' ∨ x = '\x7b') ∧ (y = ')' ∨ y = '\x7d')) ∧ part.isBinary = false ∧
      ∀ chars, part.Spelled chars ↔ ∃ middle, chars = x :: (middle ++ [y]) := by
  unfold brackets? at brackets
  split at brackets
  all_goals cases brackets
  all_goals
    refine ⟨by decide, rfl, fun chars => ⟨fun spelled => spelled _ rfl, ?_⟩⟩
    rintro spelled _ ⟨⟩
    exact spelled

end Part

structure Extent where
  start : Nat
  stop : Nat
  deriving DecidableEq, Repr

def Extent.Inside (a b : Extent) : Prop := b.start ≤ a.start ∧ a.stop ≤ b.stop

/--
Characters without brackets: trivia and tokens other than brackets.  Brackets in
comments and quoted texts do not count.
-/
inductive Plain (atEnd : Bool) : List Char → Prop where
  | trivia {w : List Char} (gap : Trivia atEnd w) : Plain atEnd w
  | token {t : Token} {w u : List Char} (gap : Trivia false w)
      (lexical : t.Lexical) (notOpen : Nesting.opens t = false)
      (notClose : Nesting.closes t = false) (rest : Plain atEnd u) :
      Plain atEnd (w ++ (t.text ++ u))

def Gap (text : List Char) (start stop : Nat) : Prop :=
  ∃ front chars back, text = front ++ chars ++ back ∧ start = utf8Length front ∧
    stop = utf8Length front + utf8Length chars ∧ Plain back.isEmpty chars

/-- Regions lie one behind the other between two offsets, with no brackets between them. -/
inductive Strewn (text : List Char) : Nat → List Extent → Nat → Prop where
  | gap {start stop : Nat} (none : Gap text start stop) : Strewn text start [] stop
  | next {start stop : Nat} {e : Extent} {es : List Extent} (none : Gap text start e.start)
      (ordered : e.start ≤ e.stop) (others : Strewn text e.stop es stop) :
      Strewn text start (e :: es) stop

/-- A part, the region it takes, and the layouts of the parts inside. -/
inductive Layout where
  | node (part : Part) (extent : Extent) (inner : List Layout)

namespace Layout

def part : Layout → Part
  | node part _ _ => part

def extent : Layout → Extent
  | node _ extent _ => extent

end Layout

/-- A part is rightly placed in its region, and the parts inside of it in theirs. -/
structure Fits (text : List Char) (part : Part) (extent : Extent) (inner : List Layout) :
    Prop where
  /-- All parts inside are laid out, in their order. -/
  parts : inner.map Layout.part = part.inner
  /-- The region lies between characters of the text, and the part is written there. -/
  spelled : ∃ chars, Cuts text extent.start extent.stop chars ∧ part.Spelled chars
  /-- The parts inside do not reach beyond the region. -/
  within : ∀ l ∈ inner, l.extent.Inside extent
  /-- The parts inside lie one behind the other. -/
  disjoint : inner.Pairwise fun l r => l.extent.stop ≤ r.extent.start
  /-- No smaller region holds the operands of an operator. -/
  smallest : part.isBinary = true →
    ∀ other, (∀ l ∈ inner, l.extent.Inside other) → extent.Inside other
  /-- What is left of the region holds no brackets, those around the part apart. -/
  filled : Strewn text (extent.start + part.margin) (inner.map Layout.extent)
    (extent.stop - part.margin)

namespace Layout

inductive Sound (text : List Char) : Layout → Prop where
  | node {part : Part} {extent : Extent} {inner : List Layout}
      (fits : Fits text part extent inner) (inside : ∀ l ∈ inner, Sound text l) :
      Sound text (.node part extent inner)

/-- The span of every node is that of the region it takes. -/
inductive Spans (source : Source) : Layout → Prop where
  | node {part : Part} {extent : Extent} {inner : List Layout}
      (here : ∀ span ∈ part.span?, span = source.span extent.start extent.stop)
      (inside : ∀ l ∈ inner, Spans source l) : Spans source (.node part extent inner)

/-- A sound layout of a program in the whole of a text. -/
structure Of (layout : Layout) (program : Program) (text : List Char) : Prop where
  part : layout.part = .program program
  whole : layout.extent = ⟨0, utf8Length text⟩
  sound : layout.Sound text

end Layout

/-- Beginnings of a text that take the same number of bytes are the same. -/
theorem append_inj_of_utf8Length {u s v t : List Char} (same : u ++ s = v ++ t)
    (size : utf8Length u = utf8Length v) : u = v ∧ s = t := by
  obtain ⟨w, longer⟩ := exists_append_of_utf8Length_le same (Nat.le_of_eq size)
  have none : w = [] := by
    have bytes := length_le_utf8Length w
    rw [longer, utf8Length_append] at size
    exact List.length_eq_zero_iff.1 (by omega)
  rw [none, List.append_nil] at longer
  subst longer
  exact ⟨rfl, List.append_cancel_left same⟩

theorem Plain.append {atEnd : Bool} {u v : List Char} (first : Plain false u)
    (second : Plain atEnd v) : Plain atEnd (u ++ v) := by
  induction first with
  | trivia gap =>
      cases second with
      | trivia gap' => exact .trivia (gap.append gap')
      | token gap' lexical notOpen notClose rest =>
          rw [← List.append_assoc]
          exact .token (gap.append gap') lexical notOpen notClose rest
  | token gap lexical notOpen notClose rest ih =>
      have joined := Plain.token gap lexical notOpen notClose ih
      simpa using joined

namespace Gap

variable {text : List Char} {start middle stop : Nat}

theorem le (gap : Gap text start stop) : start ≤ stop := by
  obtain ⟨front, chars, back, _, rfl, rfl, _⟩ := gap
  exact Nat.le_add_right _ _

theorem refl {front rest : List Char} (split : text = front ++ rest) :
    Gap text (utf8Length front) (utf8Length front) :=
  ⟨front, [], rest, by rw [List.append_nil, split], rfl, rfl, .trivia .nil⟩

theorem atStart (gap : Gap text start stop) : Gap text start start := by
  obtain ⟨front, chars, back, split, rfl, _⟩ := gap
  rw [List.append_assoc] at split
  exact refl split

theorem atStop (gap : Gap text start stop) : Gap text stop stop := by
  obtain ⟨front, chars, back, split, _, rfl, _⟩ := gap
  rw [← utf8Length_append]
  exact refl split

theorem trans (first : Gap text start middle) (second : Gap text middle stop) :
    Gap text start stop := by
  obtain ⟨front, u, back, split, rfl, rfl, plain⟩ := first
  obtain ⟨front', v, back', split', size, rfl, plain'⟩ := second
  rw [← utf8Length_append] at size
  rw [split, List.append_assoc front'] at split'
  obtain ⟨rfl, rest⟩ := append_inj_of_utf8Length split' size
  refine ⟨front, u ++ v, back', ?_, rfl, ?_, ?_⟩
  · rw [split, rest]
    simp
  · rw [utf8Length_append, utf8Length_append, Nat.add_assoc]
  · cases back with
    | nil =>
        obtain ⟨rfl, rfl⟩ := List.append_eq_nil_iff.1 rest.symm
        rwa [List.append_nil]
    | cons c back => exact plain.append plain'

end Gap

namespace Strewn

variable {text : List Char} {start middle stop : Nat} {es : List Extent}

theorem append {es' : List Extent} (first : Strewn text start es middle)
    (second : Strewn text middle es' stop) : Strewn text start (es ++ es') stop := by
  induction first with
  | gap none =>
      cases second with
      | gap none' => exact .gap (none.trans none')
      | next none' ordered others => exact .next (none.trans none') ordered others
  | next none ordered others ih => exact .next none ordered (ih second)

theorem le (strewn : Strewn text start es stop) : start ≤ stop := by
  induction strewn with
  | gap none => exact none.le
  | next none ordered others ih => exact none.le.trans (ordered.trans ih)

theorem inside (strewn : Strewn text start es stop) :
    ∀ e ∈ es, e.Inside ⟨start, stop⟩ ∧ e.start ≤ e.stop := by
  induction strewn with
  | gap none => exact List.forall_mem_nil _
  | @next start stop e es none ordered others ih =>
      have before := none.le
      refine List.forall_mem_cons.2 ⟨⟨⟨before, others.le⟩, ordered⟩, fun e' mem => ?_⟩
      obtain ⟨⟨low, high⟩, ordered'⟩ := ih e' mem
      refine ⟨⟨?_, high⟩, ordered'⟩
      dsimp only at low ⊢
      omega

/-- The regions lie one behind the other. -/
theorem pairwise (strewn : Strewn text start es stop) :
    es.Pairwise fun a b => a.stop ≤ b.start := by
  induction strewn with
  | gap none => exact .nil
  | next none ordered others ih =>
      apply List.pairwise_cons.2
      exact ⟨fun e mem => (others.inside e mem).1.1, ih⟩

theorem atStart (strewn : Strewn text start es stop) : Gap text start start := by
  cases strewn with
  | gap none => exact none.atStart
  | next none ordered others => exact none.atStart

theorem atStop (strewn : Strewn text start es stop) : Gap text stop stop := by
  induction strewn with
  | gap none => exact none.atStop
  | next none ordered others ih => exact ih

/-- The regions are strewn over some characters of the text. -/
theorem cuts (strewn : Strewn text start es stop) : ∃ chars, Cuts text start stop chars := by
  have ordered := strewn.le
  obtain ⟨front, _, rest, split, rfl, _⟩ := strewn.atStart
  obtain ⟨front', _, rest', split', rfl, _⟩ := strewn.atStop
  rw [List.append_assoc] at split split'
  obtain ⟨w, rfl⟩ := exists_append_of_utf8Length_le (split.symm.trans split') ordered
  exact ⟨w, front, _, split', rfl, utf8Length_append front w⟩

theorem single {chars : List Char} (cuts : Cuts text start stop chars) :
    Strewn text start [⟨start, stop⟩] stop := by
  obtain ⟨front, back, split, rfl, rfl⟩ := cuts
  have around : text = front ++ (chars ++ back) := by rw [split, List.append_assoc]
  have low : Gap text (utf8Length front) (utf8Length front) := .refl around
  have high : Gap text (utf8Length (front ++ chars)) (utf8Length (front ++ chars)) := .refl split
  rw [utf8Length_append] at high
  exact .next low (Nat.le_add_right _ _) (.gap high)

/-- Two neighbours may be replaced by the smallest region that holds both. -/
theorem join {a b : Extent} {before behind : List Extent}
    (strewn : Strewn text start (before ++ a :: b :: behind) stop) :
    Strewn text start (before ++ ⟨a.start, b.stop⟩ :: behind) stop ∧
      Strewn text a.start [a, b] b.stop := by
  induction before generalizing start with
  | nil =>
      cases strewn with
      | next none ordered others =>
          cases others with
          | next none' ordered' others' =>
              have reach : a.start ≤ b.stop := ordered.trans (none'.le.trans ordered')
              refine ⟨.next none reach others', ?_⟩
              exact .next none.atStop ordered (.next none' ordered' (.gap others'.atStart))
  | cons e before ih =>
      cases strewn with
      | next none ordered others =>
          obtain ⟨joined, pair⟩ := ih others
          exact ⟨.next none ordered joined, pair⟩

end Strewn

end TinyScript
