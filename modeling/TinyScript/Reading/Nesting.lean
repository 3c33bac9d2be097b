import TinyScript.Source.Cursor

/-!
# Nesting of brackets

Before a text is read, its brackets are counted.  Round brackets and braces
count alike; those in quoted texts and comments do not count, and a closing
bracket without an opening one is ignored here, being for the grammar to
refuse.
-/

namespace TinyScript.Nesting

def maxOpen : Nat := 64

inductive Region where
  | code
  | quoted (mark : Char)
  | comment
  deriving DecidableEq, Repr

/-- The first bracket at which more than `maxOpen` brackets are open. -/
def tooDeepFrom? (region : Region) (depth : Nat) (mark : Mark) : List Char → Option Mark
  | [] => none
  | c :: rest =>
      match region with
      | .quoted q =>
          tooDeepFrom? (if c = q then .code else .quoted q) depth (mark.step c) rest
      | .comment =>
          tooDeepFrom? (if c = '\n' then .code else .comment) depth (mark.step c) rest
      | .code =>
          if c = '"' ∨ c = '\'' then
            tooDeepFrom? (.quoted c) depth (mark.step c) rest
          else if c = '/' ∧ rest.head? = some '/' then
            tooDeepFrom? .comment depth (mark.step c) rest
          else if c = '(' ∨ c = '\x7b' then
            if maxOpen < depth + 1 then some mark
            else tooDeepFrom? .code (depth + 1) (mark.step c) rest
          else if c = ')' ∨ c = '\x7d' then
            tooDeepFrom? .code (depth - 1) (mark.step c) rest
          else
            tooDeepFrom? .code depth (mark.step c) rest

def tooDeep? (text : List Char) : Option Mark := tooDeepFrom? .code 0 .origin text

end TinyScript.Nesting
