/-!
# Lexemes

Character classes and the smallest readable units: words, names, numbers and
quoted texts.  A scan splits the characters ahead into a lexeme and the rest,
or refuses them.  The language is written in ASCII, so the letters and digits
of names and numbers are the ASCII ones; quoted texts may hold any character.
-/

namespace TinyScript.Lexeme

/-- A scan splits off a lexeme at the front of the characters ahead. -/
abbrev Scan := List Char → Option (List Char × List Char)

def isBlank (c : Char) : Bool := c == ' ' || c == '\t' || c == '\r' || c == '\n'

def isWordStart (c : Char) : Bool := c.isAlpha || c == '_'

def isWordChar (c : Char) : Bool := c.isAlphanum || c == '_'

def continuesWord : List Char → Bool
  | [] => false
  | c :: _ => isWordChar c

def exactly (symbol : List Char) : Scan := fun chars =>
  (symbol.isPrefixOf? chars).map (symbol, ·)

/-- Scan a whole word, one that no further character continues. -/
def word (text : String) : Scan := fun chars =>
  (exactly text.toList chars).filter fun (_, rest) => !continuesWord rest

def oneOf (words : List String) : Scan := fun chars => words.findSome? (word · chars)

def keywords : List String := ["if", "else", "while", "until", "true", "false", "null"]

def identifier : Scan
  | [] => none
  | c :: rest =>
      if isWordStart c && (oneOf keywords (c :: rest)).isNone then
        let (tail, rest) := rest.span isWordChar
        some (c :: tail, rest)
      else none

def digits : Scan := fun chars =>
  match chars.span Char.isDigit with
  | ([], _) => none
  | (ds, rest) => some (ds, rest)

def integer : Scan := digits

def float : Scan := fun chars => do
  let (whole, rest) ← digits chars
  let (point, rest) ← exactly ['.'] rest
  let (fraction, rest) ← digits rest
  return (whole ++ point ++ fraction, rest)

/-- Scan a text between two occurrences of one quotation mark; it holds anything but that mark. -/
def quoted (mark : Char) : Scan := fun chars => do
  let (opening, rest) ← exactly [mark] chars
  let (body, rest) := rest.span (· != mark)
  let (closing, rest) ← exactly [mark] rest
  return (opening ++ body ++ closing, rest)

def text : Scan := fun chars => (quoted '"' chars).orElse fun _ => quoted '\'' chars

end TinyScript.Lexeme
