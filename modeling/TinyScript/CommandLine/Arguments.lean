import TinyScript.Run.State

/-!
# Command-line arguments

A script to run, and options: two flags and two limits.  Options and the
script may stand in any order; behind a double dash everything is a script.
An option is given at most once, and exactly one script is named.
-/

namespace TinyScript

structure Arguments where
  /-- Show the tree of the script before running it. -/
  debugParse : Bool := false
  /-- Report errors as JSON. -/
  json : Bool := false
  maxSteps : Option Nat := none
  maxDepth : Option Nat := none
  file : Option String := none
  deriving DecidableEq, Repr

namespace Arguments

def limits (a : Arguments) : Limits :=
  match a.maxDepth with
  | some maxDepth => { maxSteps := a.maxSteps, maxDepth }
  | none => { maxSteps := a.maxSteps }

def limit? (text : String) : Option Nat :=
  let digits := match text.toList with
    | '+' :: digits => digits
    | digits => digits
  if digits.isEmpty ∨ ¬ digits.all Char.isDigit then none
  else
    let n := digits.foldl (fun n c => 10 * n + (c.toNat - '0'.toNat)) 0
    if n < UInt64.size then some n else none

def withFile? (a : Arguments) (file : String) : Option Arguments :=
  if a.file.isSome ∨ file.isEmpty then none else some { a with file := some file }

def withFlag? (a : Arguments) : String → Option Arguments
  | "--debug-parse" => if a.debugParse then none else some { a with debugParse := true }
  | "--json" => if a.json then none else some { a with json := true }
  | _ => none

def withOption? (a : Arguments) (name value : String) : Option Arguments := do
  let n ← limit? value
  match name with
  | "--max-steps" => if a.maxSteps.isSome then none else some { a with maxSteps := some n }
  | "--max-depth" => if a.maxDepth.isSome then none else some { a with maxDepth := some n }
  | _ => none

/-- Whether an argument names an option that takes its value from the next argument. -/
def takesValue (arg : String) : Bool := arg == "--max-steps" || arg == "--max-depth"

def assignment? (arg : String) : Option (String × String) :=
  match arg.toList.span (· != '=') with
  | (name, '=' :: value) => some (String.ofList name, String.ofList value)
  | _ => none

/-- Read arguments behind those that are already understood; `none` is a usage error. -/
def parseFrom (a : Arguments) (onlyFiles : Bool) : List String → Option Arguments
  | [] => if a.file.isSome then some a else none
  | arg :: rest =>
      if onlyFiles || arg == "-" || !arg.startsWith "-" then do
        parseFrom (← a.withFile? arg) onlyFiles rest
      else if arg == "--" then parseFrom a true rest
      else if takesValue arg then
        match rest with
        | [] => none
        | value :: rest => do parseFrom (← a.withOption? arg value) false rest
      else
        match assignment? arg with
        | some (name, value) => do parseFrom (← a.withOption? name value) false rest
        | none => do parseFrom (← a.withFlag? arg) false rest

def parse? (args : List String) : Option Arguments := parseFrom {} false args

end Arguments

end TinyScript
