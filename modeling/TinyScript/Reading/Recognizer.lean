import TinyScript.Reading.Lexeme
import TinyScript.Reading.Frontier

/-!
# Recognizers

A recognizer reads a value at a cursor or refuses, and reports the frontier of
what it tried on the way.  The report never influences the outcome, because a
recognizer sees nothing but the cursor.  Alternatives are ordered: a later one
is tried only where every earlier one refused.
-/

namespace TinyScript

/-- The outcome of a recognizer: the value with the cursor behind it, if any, and the frontier. -/
structure Reply (α : Type) where
  result : Option (α × Cursor)
  frontier : Frontier

def Recognizer (α : Type) : Type := Cursor → Reply α

namespace Recognizer

variable {α β : Type}

protected def pure (a : α) : Recognizer α := fun c => ⟨some (a, c), .none⟩

protected def bind (p : Recognizer α) (f : α → Recognizer β) : Recognizer β := fun c =>
  match p c with
  | ⟨none, frontier⟩ => ⟨none, frontier⟩
  | ⟨some (a, c'), frontier⟩ =>
      let reply := f a c'
      ⟨reply.result, frontier.merge reply.frontier⟩

instance : Monad Recognizer where
  pure := Recognizer.pure
  bind := Recognizer.bind

def refuse : Recognizer α := fun _ => ⟨none, .none⟩

protected def orElse (p : Recognizer α) (q : Unit → Recognizer α) : Recognizer α := fun c =>
  match p c with
  | ⟨some r, frontier⟩ => ⟨some r, frontier⟩
  | ⟨none, frontier⟩ =>
      let reply := q () c
      ⟨reply.result, frontier.merge reply.frontier⟩

instance : OrElse (Recognizer α) where
  orElse := Recognizer.orElse

def withDefault (default : α) (p : Recognizer α) : Recognizer α := p <|> pure default

/-- Name a recognizer: where it refuses, the rule is what was expected. -/
def expecting (rule : Rule) (p : Recognizer α) : Recognizer α := fun c =>
  match p c with
  | ⟨some r, frontier⟩ => ⟨some r, frontier⟩
  | ⟨none, frontier⟩ => ⟨none, frontier.blame rule c.mark⟩

def spanned (p : Recognizer α) : Recognizer (α × Span) := fun c =>
  match p c with
  | ⟨none, frontier⟩ => ⟨none, frontier⟩
  | ⟨some (a, c'), frontier⟩ => ⟨some ((a, c.mark.spanTo c'.mark), c'), frontier⟩

def lexeme (scan : Lexeme.Scan) : Recognizer String := fun c =>
  match scan c.rest with
  | none => ⟨none, .none⟩
  | some (text, rest) => ⟨some (String.ofList text, ⟨c.mark.advance text, rest⟩), .none⟩

def symbol (chars : List Char) : Recognizer Unit := do
  let _ ← lexeme (Lexeme.exactly chars)

def token (rule : Rule) (scan : Lexeme.Scan) : Recognizer String :=
  expecting rule (lexeme scan)

def endOfInput : Recognizer Unit :=
  expecting .endOfInput fun c =>
    if c.rest.isEmpty then ⟨some ((), c), .none⟩ else ⟨none, .none⟩

end Recognizer

/--
The cursor behind the blanks and comments ahead.  A comment begins with two
slashes and ends in front of a newline or at the end of the text.
-/
def skipTrivia (inComment : Bool) (mark : Mark) : List Char → Cursor
  | [] => ⟨mark, []⟩
  | c :: rest =>
      if inComment then skipTrivia (c != '\n') (mark.step c) rest
      else if Lexeme.isBlank c then skipTrivia false (mark.step c) rest
      else if c == '/' && rest.head? == some '/' then skipTrivia true (mark.step c) rest
      else ⟨mark, c :: rest⟩

namespace Recognizer

variable {α : Type}

def trivia : Recognizer Unit := fun c => ⟨some ((), skipTrivia false c.mark c.rest), .none⟩

/--
Read values until one is refused, with blanks and comments in front of each.
What was skipped in front of the refused one is given back.  The bound counts
values; every value takes a character, so the length of the text suffices.
-/
def manyMore (p : Recognizer α) (bound : Nat) (found : List α) (frontier : Frontier)
    (c : Cursor) : Reply (List α) :=
  match bound with
  | 0 => ⟨some (found.reverse, c), frontier⟩
  | bound + 1 =>
      match (do trivia; p : Recognizer α) c with
      | ⟨none, f⟩ => ⟨some (found.reverse, c), frontier.merge f⟩
      | ⟨some (a, c'), f⟩ => manyMore p bound (a :: found) (frontier.merge f) c'

def many (bound : Nat) (p : Recognizer α) : Recognizer (List α) := fun c =>
  match p c with
  | ⟨none, frontier⟩ => ⟨some ([], c), frontier⟩
  | ⟨some (a, c'), frontier⟩ => manyMore p bound [a] frontier c'

end Recognizer

end TinyScript
