import TinyScript.Proofs.Steps

/-!
# Rules of the language

What a program does, as rules that know nothing of budgets, regions and logs.
A rule takes a store to a result and a store after it.  Statements run in
order up to the first error.  The function of a call is found before its
arguments are evaluated, from left to right; both operands are evaluated, the
left one first.  A loop checks its condition once before every round and once
at its end; the alternative runs once, if the very first check ends the loop.
-/

namespace TinyScript

variable {σ : Type}

def Value.isNumber : Value → Bool
  | .integer _ | .float _ => true
  | _ => false

inductive Promotes : Value → Value → Float → Float → Prop where
  | floats (x y : Float) : Promotes (.float x) (.float y) x y
  | left (n : Int64) (y : Float) : Promotes (.integer n) (.float y) (floatOfInt n) y
  | right (x : Float) (n : Int64) : Promotes (.float x) (.integer n) x (floatOfInt n)

/--
Arithmetic.  Two integers give their exact result or an overflow, two numbers
otherwise a float, and a sum with a text the joined texts.  Other operands do
not match, and other operators are not supported.
-/
inductive Arithmetic : BinOp → Value → Value → Except EvalError Value → Prop where
  | integers {op : BinOp} {onInt : Int → Int → Int} {onFloat : Float → Float → Float}
      {a b n : Int64} (known : op.functions? = some (onInt, onFloat))
      (fits : n.toInt = onInt a.toInt b.toInt) :
      Arithmetic op (.integer a) (.integer b) (.ok (.integer n))
  | overflow {op : BinOp} {onInt : Int → Int → Int} {onFloat : Float → Float → Float}
      {a b : Int64} (known : op.functions? = some (onInt, onFloat))
      (outside : ∀ n : Int64, n.toInt ≠ onInt a.toInt b.toInt) :
      Arithmetic op (.integer a) (.integer b) (.error (.overflow
        ((Value.integer a).display ++ " " ++ op.symbol ++ " " ++ (Value.integer b).display ++
          " does not fit in 64 bits")))
  | floats {op : BinOp} {onInt : Int → Int → Int} {onFloat : Float → Float → Float}
      {left right : Value} {x y : Float} (known : op.functions? = some (onInt, onFloat))
      (promoted : Promotes left right x y) : Arithmetic op left right (.ok (.float (onFloat x y)))
  | texts {left right : Value} (text : left.isText = true ∨ right.isText = true) :
      Arithmetic .add left right (.ok (.text (left.display ++ right.display)))
  | mismatch {op : BinOp} {left right : Value} (known : op.isArithmetic = true)
      (other : left.isNumber = false ∨ right.isNumber = false)
      (noText : op = .add → left.isText = false ∧ right.isText = false) :
      Arithmetic op left right (.error (.typeMismatch
        ("cannot apply '" ++ op.symbol ++ "' to " ++ left.typeName ++ " and " ++ right.typeName)))
  | unsupported {op : BinOp} {left right : Value} (unknown : op.isArithmetic = false) :
      Arithmetic op left right
        (.error (.internalError ("'" ++ op.symbol ++ "' is not an additive operator")))

def BinOp.wanted? : BinOp → Option Ordering
  | .greater => some .gt
  | .less => some .lt
  | _ => none

/--
Equality of values: the same kind and the same content.  A float that is no
number equals itself, and a function only itself.
-/
inductive Alike : Value → Value → Prop where
  | integer (n : Int64) : Alike (.integer n) (.integer n)
  | float {x y : Float} (same : (x == y) = true) : Alike (.float x) (.float y)
  | noNumber {x y : Float} (left : x.isNaN = true) (right : y.isNaN = true) :
      Alike (.float x) (.float y)
  | text (s : String) : Alike (.text s) (.text s)
  | boolean (b : Bool) : Alike (.boolean b) (.boolean b)
  | null : Alike .null .null
  | native {f g : Native} (same : f.handle = g.handle) : Alike (.native f) (.native g)

/--
Comparison.  Every two values are equal or not; numbers are ordered, as floats
if one of them is a float.  Other operands do not match, and other operators
are not supported.
-/
inductive Comparison : BinOp → Value → Value → Except EvalError Value → Prop where
  | equal {left right : Value} {b : Bool} (decides : b = true ↔ Alike left right) :
      Comparison .eq left right (.ok (.boolean b))
  | different {left right : Value} {b : Bool} (decides : b = false ↔ Alike left right) :
      Comparison .notEq left right (.ok (.boolean b))
  | integers {op : BinOp} {wanted : Ordering} {a b : Int64} (known : op.wanted? = some wanted) :
      Comparison op (.integer a) (.integer b)
        (.ok (.boolean (compare a.toInt b.toInt == wanted)))
  | floats {op : BinOp} {wanted : Ordering} {left right : Value} {x y : Float}
      (known : op.wanted? = some wanted) (promoted : Promotes left right x y) :
      Comparison op left right (.ok (.boolean (floatOrder x y == some wanted)))
  | mismatch {op : BinOp} {wanted : Ordering} {left right : Value}
      (known : op.wanted? = some wanted)
      (other : left.isNumber = false ∨ right.isNumber = false) :
      Comparison op left right (.error (.typeMismatch
        ("cannot compare " ++ left.typeName ++ " and " ++ right.typeName ++ " with '" ++
          op.symbol ++ "'")))
  | unsupported {op : BinOp} {left right : Value} (unknown : op.isArithmetic = true) :
      Comparison op left right
        (.error (.internalError ("'" ++ op.symbol ++ "' is not a comparison operator")))

/-! ## The rules and the operators of values -/

/-- A 64-bit integer with a given value is found if there is one. -/
theorem int64?_eq_some_iff {n : Int} {m : Int64} : int64? n = some m ↔ m.toInt = n := by
  unfold int64?
  have low := Int64.le_toInt m
  have high := Int64.toInt_lt m
  constructor
  · intro found
    split at found
    · next fits =>
        cases found
        exact Int64.toInt_ofInt_of_le fits.1 fits.2
    · cases found
  · rintro rfl
    rw [if_pos ⟨low, high⟩, Int64.ofInt_toInt]

theorem Value.same_iff (left right : Value) : left.same right = true ↔ Alike left right := by
  constructor
  · intro same
    cases left with
    | integer a =>
        cases right with
        | integer b =>
            rw [show a = b from eq_of_beq same]
            exact .integer b
        | _ => cases same
    | float x =>
        cases right with
        | float y =>
            rcases Bool.or_eq_true_iff.1 same with same | noNumber
            · exact .float same
            · obtain ⟨left, right⟩ := Bool.and_eq_true_iff.1 noNumber
              exact .noNumber left right
        | _ => cases same
    | text s =>
        cases right with
        | text t =>
            rw [show s = t from eq_of_beq same]
            exact .text t
        | _ => cases same
    | boolean b =>
        cases right with
        | boolean c =>
            rw [show b = c from eq_of_beq same]
            exact .boolean c
        | _ => cases same
    | null =>
        cases right with
        | null => exact .null
        | _ => cases same
    | native f =>
        cases right with
        | native g => exact .native (eq_of_beq same)
        | _ => cases same
  · intro alike
    cases alike with
    | integer n => exact beq_self_eq_true n
    | float same => exact Bool.or_eq_true_iff.2 (.inl same)
    | noNumber left right =>
        exact Bool.or_eq_true_iff.2 (.inr (Bool.and_eq_true_iff.2 ⟨left, right⟩))
    | text s => exact beq_self_eq_true s
    | boolean b => exact beq_self_eq_true b
    | null => rfl
    | native same => exact beq_iff_eq.2 same

theorem Value.isNumber_of_isText {v : Value} (text : v.isText = true) : v.isNumber = false := by
  cases v <;> simp_all [Value.isText, Value.isNumber]

/-- Two values are integers, or numbers taken for floats, or not both numbers. -/
theorem Value.pair_cases (left right : Value) :
    (∃ a b, left = .integer a ∧ right = .integer b) ∨ (∃ x y, Promotes left right x y) ∨
      (left.isNumber = false ∨ right.isNumber = false) := by
  cases left with
  | integer a =>
      cases right with
      | integer b => exact .inl ⟨a, b, rfl, rfl⟩
      | float y => exact .inr (.inl ⟨_, _, .left a y⟩)
      | _ => exact .inr (.inr (.inr rfl))
  | float x =>
      cases right with
      | integer b => exact .inr (.inl ⟨_, _, .right x b⟩)
      | float y => exact .inr (.inl ⟨_, _, .floats x y⟩)
      | _ => exact .inr (.inr (.inr rfl))
  | _ => exact .inr (.inr (.inl rfl))

namespace BinOp

variable {op : BinOp} {left right : Value}

theorem functions?_eq_none_iff : op.functions? = none ↔ op.isArithmetic = false := by
  cases op <;> simp [functions?, isArithmetic]

theorem arithmetic_integers {onInt : Int → Int → Int} {onFloat : Float → Float → Float}
    (known : op.functions? = some (onInt, onFloat)) (a b : Int64) :
    op.arithmetic (.integer a) (.integer b) =
      match int64? (onInt a.toInt b.toInt) with
      | some n => .ok (.integer n)
      | none => .error (.overflow ((Value.integer a).display ++ " " ++ op.symbol ++ " " ++
          (Value.integer b).display ++ " does not fit in 64 bits")) := by
  cases op <;> cases known <;> rfl

theorem arithmetic_floats {onInt : Int → Int → Int} {onFloat : Float → Float → Float}
    (known : op.functions? = some (onInt, onFloat)) {x y : Float}
    (promoted : Promotes left right x y) :
    op.arithmetic left right = .ok (.float (onFloat x y)) := by
  rw [arithmetic, known]
  cases promoted <;> rfl

theorem arithmetic_other (known : op.isArithmetic = true)
    (other : left.isNumber = false ∨ right.isNumber = false) :
    op.arithmetic left right =
      if op = add ∧ (left.isText ∨ right.isText) then .ok (.text (left.display ++ right.display))
      else .error (.typeMismatch ("cannot apply '" ++ op.symbol ++ "' to " ++ left.typeName ++
        " and " ++ right.typeName)) := by
  unfold arithmetic
  split
  · next unknown =>
      rw [functions?_eq_none_iff, known] at unknown
      cases unknown
  · split
    iterate 4 simp [Value.isNumber] at other
    rfl

theorem arithmetic_unsupported (unknown : op.isArithmetic = false) :
    op.arithmetic left right =
      .error (.internalError ("'" ++ op.symbol ++ "' is not an additive operator")) := by
  rw [arithmetic, functions?_eq_none_iff.2 unknown]

theorem order?_floats {x y : Float} (promoted : Promotes left right x y) :
    left.order? right = some (floatOrder x y) := by
  cases promoted <;> rfl

theorem order?_other (other : left.isNumber = false ∨ right.isNumber = false) :
    left.order? right = none := by
  unfold Value.order?
  split
  iterate 4 simp [Value.isNumber] at other
  rfl

theorem comparison_ordered {wanted : Ordering} (known : op.wanted? = some wanted) :
    op.comparison left right = op.ordered wanted left right := by
  cases op <;> cases known <;> rfl

end BinOp

/-- The rules of arithmetic derive what the operators compute, and nothing else. -/
theorem arithmetic_iff {op : BinOp} {left right : Value} {result : Except EvalError Value} :
    Arithmetic op left right result ↔ op.arithmetic left right = result := by
  constructor
  · intro rule
    cases rule with
    | integers known fits => rw [BinOp.arithmetic_integers known, int64?_eq_some_iff.2 fits]
    | @overflow _ onInt onFloat a b known outside =>
        rw [BinOp.arithmetic_integers known]
        cases found : int64? (onInt a.toInt b.toInt) with
        | none => rfl
        | some n => exact absurd (int64?_eq_some_iff.1 found) (outside n)
    | floats known promoted => exact BinOp.arithmetic_floats known promoted
    | texts text =>
        have other := text.imp Value.isNumber_of_isText Value.isNumber_of_isText
        rw [BinOp.arithmetic_other rfl other, if_pos ⟨rfl, text⟩]
    | mismatch known other noText =>
        rw [BinOp.arithmetic_other known other, if_neg]
        rintro ⟨sum, text⟩
        obtain ⟨first, second⟩ := noText sum
        simp [first, second] at text
    | unsupported unknown => exact BinOp.arithmetic_unsupported unknown
  · rintro rfl
    cases known : op.functions? with
    | none =>
        rw [BinOp.functions?_eq_none_iff] at known
        rw [BinOp.arithmetic_unsupported known]
        exact .unsupported known
    | some functions =>
        rcases Value.pair_cases left right with ⟨a, b, rfl, rfl⟩ | ⟨x, y, promoted⟩ | other
        · rw [BinOp.arithmetic_integers known]
          cases found : int64? (functions.1 a.toInt b.toInt) with
          | none =>
              refine .overflow known fun n fits => ?_
              rw [int64?_eq_some_iff.2 fits] at found
              cases found
          | some n => exact .integers known (int64?_eq_some_iff.1 found)
        · rw [BinOp.arithmetic_floats known promoted]
          exact .floats known promoted
        · have arithmetic : op.isArithmetic = true := by
            rw [← Bool.not_eq_false, ← BinOp.functions?_eq_none_iff, known]
            nofun
          rw [BinOp.arithmetic_other arithmetic other]
          split
          · next text =>
              obtain ⟨rfl, text⟩ := text
              exact .texts text
          · next noText =>
              refine .mismatch arithmetic other fun sum => ?_
              simpa [sum] using noText

/-- The rules of comparison derive what the operators compute, and nothing else. -/
theorem comparison_iff {op : BinOp} {left right : Value} {result : Except EvalError Value} :
    Comparison op left right result ↔ op.comparison left right = result := by
  constructor
  · intro rule
    cases rule with
    | equal decides =>
        have same := Bool.eq_iff_iff.2 ((Value.same_iff left right).trans decides.symm)
        rw [BinOp.comparison, same]
    | @different _ _ b decides =>
        have same : (!left.same right) = b := by
          rw [← Bool.not_eq_true', ← Value.same_iff] at decides
          rw [← Bool.eq_iff_iff.2 decides, Bool.not_not]
        rw [BinOp.comparison, same]
    | integers known =>
        rw [BinOp.comparison_ordered known]
        rfl
    | floats known promoted =>
        rw [BinOp.comparison_ordered known, BinOp.ordered, BinOp.order?_floats promoted]
    | mismatch known other =>
        rw [BinOp.comparison_ordered known, BinOp.ordered, BinOp.order?_other other]
    | unsupported unknown => cases op <;> cases unknown <;> rfl
  · rintro rfl
    cases known : op.wanted? with
    | none =>
        cases op with
        | eq => exact .equal (left.same_iff right)
        | notEq =>
            refine .different ?_
            rw [Bool.not_eq_false', Value.same_iff]
        | greater => cases known
        | less => cases known
        | _ => exact .unsupported rfl
    | some wanted =>
        rw [BinOp.comparison_ordered known, BinOp.ordered]
        rcases Value.pair_cases left right with ⟨a, b, rfl, rfl⟩ | ⟨x, y, promoted⟩ | other
        · exact .integers known
        · rw [BinOp.order?_floats promoted]
          exact .floats known promoted
        · rw [BinOp.order?_other other]
          exact .mismatch known other

/-! ## Names and functions -/

inductive Reads (env : Environment) (name : String) : Except EvalError Value → Prop where
  | bound {value : Value} (given : env.get? name = some value) : Reads env name (.ok value)
  | unbound (missing : env.get? name = none) :
      Reads env name (.error (.undefinedVariable name))

inductive Resolves (env : Environment) (name : String) : Except EvalError Native → Prop where
  | native {f : Native} (given : env.get? name = some (.native f)) : Resolves env name (.ok f)
  | other {value : Value} (given : env.get? name = some value)
      (noFunction : ∀ f, value ≠ .native f) :
      Resolves env name (.error (.notCallable
        ("'" ++ name ++ "' is " ++ value.typeName ++ ", not a function")))
  | unbound (missing : env.get? name = none) :
      Resolves env name (.error (.undefinedVariable name))

/-- Writing values, each on a line of its own, up to the first that the sink refuses. -/
inductive Writes : List Value → Sink → Except EvalError Unit → Sink → Prop where
  | done (sink : Sink) : Writes [] sink (.ok ()) sink
  | line {value : Value} {values : List Value} {before after last : Sink}
      {result : Except EvalError Unit}
      (taken : before.write (value.display ++ "\n") = (.ok (), after))
      (others : Writes values after result last) : Writes (value :: values) before result last
  | refused {value : Value} {values : List Value} {before after : Sink} {e : EvalError}
      (refused : before.write (value.display ++ "\n") = (.error e, after)) :
      Writes (value :: values) before (.error e) after

inductive Invokes (host : Host σ) (args : List Value) :
    Native → Store σ → Except EvalError (Option Value) → Store σ → Prop where
  | write {name : String} {x : Store σ} {result : Except EvalError Unit} {sink : Sink}
      (written : Writes args x.sink result sink) :
      Invokes host args ⟨name, .write⟩ x (result.map fun _ => none) { x with sink }
  | host {name : String} {index : Nat} {x : Store σ} {reply : HostReply σ}
      (replied : host.invoke index args x.sink x.host = reply) :
      Invokes host args ⟨name, .host index⟩ x reply.result
        { x with sink := reply.sink, host := reply.state }

theorem Reads.unique {env : Environment} {name : String} {result result' : Except EvalError Value}
    (first : Reads env name result) (second : Reads env name result') : result = result' := by
  cases first <;> cases second <;> grind

theorem Resolves.unique {env : Environment} {name : String}
    {result result' : Except EvalError Native} (first : Resolves env name result)
    (second : Resolves env name result') : result = result' := by
  cases first <;> cases second <;> grind

theorem writes_iff {values : List Value} {before after : Sink} {result : Except EvalError Unit} :
    Writes values before result after ↔ writeLines before values = (result, after) := by
  constructor
  · intro rule
    induction rule with
    | done sink => rfl
    | line taken _ ih => rwa [writeLines, List.map_cons, Sink.writeAll, taken]
    | refused refused => rw [writeLines, List.map_cons, Sink.writeAll, refused]
  · intro written
    induction values generalizing before with
    | nil =>
        cases written
        exact .done _
    | cons value values ih =>
        rw [writeLines, List.map_cons, Sink.writeAll] at written
        split at written
        · next taken => exact .line taken (ih written)
        · next refused =>
            cases written
            exact .refused refused

/-- The rules of functions derive what calling them gives. -/
theorem invokes_iff {host : Host σ} {args : List Value} {f : Native} {x y : Store σ}
    {result : Except EvalError (Option Value)} :
    Invokes host args f x result y ↔ x.invoke host f args = (result, y) := by
  constructor
  · intro rule
    cases rule with
    | write written => rw [Store.invoke, writes_iff.1 written]
    | host replied =>
        cases replied
        rfl
  · intro invoked
    obtain ⟨name, handle⟩ := f
    cases handle with
    | write =>
        cases invoked
        exact .write (writes_iff.2 rfl)
    | host index =>
        cases invoked
        exact .host rfl

mutual

inductive Evaluates (host : Host σ) : Expr → Store σ → Except EvalError Value → Store σ → Prop where
  | const {literal : Literal} {span : Span} {x : Store σ} :
      Evaluates host (.const literal span) x literal.value x
  | ident {name : String} {span : Span} {x : Store σ} {result : Except EvalError Value}
      (read : Reads x.env name result) : Evaluates host (.ident name span) x result x
  | call {callee : Ident} {args : List Expr} {span : Span} {x y : Store σ}
      {result : Except EvalError (Option Value)} (called : Calls host callee.name args x result y) :
      Evaluates host (.call callee args span) x (result.map (·.getD .null)) y
  | additive {left right : Expr} {op : BinOp} {span : Span} {x y z : Store σ} {a b : Value}
      {result : Except EvalError Value} (first : Evaluates host left x (.ok a) y)
      (second : Evaluates host right y (.ok b) z) (computed : Arithmetic op a b result) :
      Evaluates host (.additive left op right span) x result z
  | additiveLeft {left right : Expr} {op : BinOp} {span : Span} {x y : Store σ} {e : EvalError}
      (first : Evaluates host left x (.error e) y) :
      Evaluates host (.additive left op right span) x (.error e) y
  | additiveRight {left right : Expr} {op : BinOp} {span : Span} {x y z : Store σ} {a : Value}
      {e : EvalError} (first : Evaluates host left x (.ok a) y)
      (second : Evaluates host right y (.error e) z) :
      Evaluates host (.additive left op right span) x (.error e) z
  | comparison {left right : Expr} {op : BinOp} {span : Span} {x y z : Store σ} {a b : Value}
      {result : Except EvalError Value} (first : Evaluates host left x (.ok a) y)
      (second : Evaluates host right y (.ok b) z) (compared : Comparison op a b result) :
      Evaluates host (.comparison left op right span) x result z
  | comparisonLeft {left right : Expr} {op : BinOp} {span : Span} {x y : Store σ} {e : EvalError}
      (first : Evaluates host left x (.error e) y) :
      Evaluates host (.comparison left op right span) x (.error e) y
  | comparisonRight {left right : Expr} {op : BinOp} {span : Span} {x y z : Store σ} {a : Value}
      {e : EvalError} (first : Evaluates host left x (.ok a) y)
      (second : Evaluates host right y (.error e) z) :
      Evaluates host (.comparison left op right span) x (.error e) z
  | paren {inner : Expr} {span : Span} {x y : Store σ} {result : Except EvalError Value}
      (inside : Evaluates host inner x result y) : Evaluates host (.paren inner span) x result y

inductive EvaluatesAll (host : Host σ) :
    List Expr → Store σ → Except EvalError (List Value) → Store σ → Prop where
  | nil {x : Store σ} : EvaluatesAll host [] x (.ok []) x
  | cons {e : Expr} {es : List Expr} {x y z : Store σ} {v : Value} {vs : List Value}
      (first : Evaluates host e x (.ok v) y) (others : EvaluatesAll host es y (.ok vs) z) :
      EvaluatesAll host (e :: es) x (.ok (v :: vs)) z
  | first {e : Expr} {es : List Expr} {x y : Store σ} {error : EvalError}
      (first : Evaluates host e x (.error error) y) :
      EvaluatesAll host (e :: es) x (.error error) y
  | others {e : Expr} {es : List Expr} {x y z : Store σ} {v : Value} {error : EvalError}
      (first : Evaluates host e x (.ok v) y) (others : EvaluatesAll host es y (.error error) z) :
      EvaluatesAll host (e :: es) x (.error error) z

inductive Calls (host : Host σ) :
    String → List Expr → Store σ → Except EvalError (Option Value) → Store σ → Prop where
  | unresolved {name : String} {args : List Expr} {x : Store σ} {e : EvalError}
      (found : Resolves x.env name (.error e)) : Calls host name args x (.error e) x
  | args {name : String} {args : List Expr} {x y : Store σ} {f : Native} {e : EvalError}
      (found : Resolves x.env name (.ok f)) (given : EvaluatesAll host args x (.error e) y) :
      Calls host name args x (.error e) y
  | native {name : String} {args : List Expr} {x y z : Store σ} {f : Native} {values : List Value}
      {result : Except EvalError (Option Value)} (found : Resolves x.env name (.ok f))
      (given : EvaluatesAll host args x (.ok values) y)
      (invoked : Invokes host values f y result z) : Calls host name args x result z

end

inductive Checks (host : Host σ) (keyword : String) (condition : Expr) :
    Store σ → Except EvalError Bool → Store σ → Prop where
  | boolean {x y : Store σ} {b : Bool} (given : Evaluates host condition x (.ok (.boolean b)) y) :
      Checks host keyword condition x (.ok b) y
  | other {x y : Store σ} {v : Value} (given : Evaluates host condition x (.ok v) y)
      (noBoolean : ∀ b, v ≠ .boolean b) :
      Checks host keyword condition x (.error (.notBoolean
        ("`" ++ keyword ++ "` condition: " ++ ("expected boolean, got " ++ v.typeName)))) y
  | failed {x y : Store σ} {e : EvalError} (given : Evaluates host condition x (.error e) y) :
      Checks host keyword condition x (.error e) y

def LoopKind.goesOn : LoopKind → Bool
  | .whileTrue => true
  | .untilTrue => false

/-- What is executed: a part of a program, or the rounds of a loop that goes on. -/
inductive Task where
  | stmt (s : Stmt)
  | block (b : Block)
  | branch (b : Branch)
  | otherwise (o : Otherwise)
  | stmts (ss : List Stmt)
  | rounds (kind : LoopKind) (condition : Expr) (body : Block)

inductive Executes (host : Host σ) : Task → Store σ → Except EvalError Unit → Store σ → Prop where
  | assign {target : Ident} {value : Expr} {span : Span} {x y : Store σ} {v : Value}
      (given : Evaluates host value x (.ok v) y) :
      Executes host (.stmt (.assign target value span)) x (.ok ()) (y.assign target.name v)
  | assignFailed {target : Ident} {value : Expr} {span : Span} {x y : Store σ} {e : EvalError}
      (given : Evaluates host value x (.error e) y) :
      Executes host (.stmt (.assign target value span)) x (.error e) y
  | call {callee : Ident} {args : List Expr} {span : Span} {x y : Store σ}
      {result : Except EvalError (Option Value)} (called : Calls host callee.name args x result y) :
      Executes host (.stmt (.call callee args span)) x (result.map fun _ => ()) y
  /-- The first check fails. -/
  | loopFailed {kind : LoopKind} {condition : Expr} {body : Block} {otherwise : Otherwise}
      {span : Span} {x y : Store σ} {e : EvalError}
      (checked : Checks host kind.keyword condition x (.error e) y) :
      Executes host (.stmt (.loop kind condition body otherwise span)) x (.error e) y
  /-- The first check ends the loop. -/
  | loopOtherwise {kind : LoopKind} {condition : Expr} {body : Block} {otherwise : Otherwise}
      {span : Span} {x y z : Store σ} {result : Except EvalError Unit}
      (checked : Checks host kind.keyword condition x (.ok (!kind.goesOn)) y)
      (instead : Executes host (.otherwise otherwise) y result z) :
      Executes host (.stmt (.loop kind condition body otherwise span)) x result z
  /-- The first check lets the loop go on. -/
  | loopRounds {kind : LoopKind} {condition : Expr} {body : Block} {otherwise : Otherwise}
      {span : Span} {x y z : Store σ} {result : Except EvalError Unit}
      (checked : Checks host kind.keyword condition x (.ok kind.goesOn) y)
      (repeated : Executes host (.rounds kind condition body) y result z) :
      Executes host (.stmt (.loop kind condition body otherwise span)) x result z
  | roundFailed {kind : LoopKind} {condition : Expr} {body : Block} {x y : Store σ} {e : EvalError}
      (ran : Executes host (.block body) x (.error e) y) :
      Executes host (.rounds kind condition body) x (.error e) y
  | roundRejected {kind : LoopKind} {condition : Expr} {body : Block} {x y z : Store σ}
      {e : EvalError} (ran : Executes host (.block body) x (.ok ()) y)
      (checked : Checks host kind.keyword condition y (.error e) z) :
      Executes host (.rounds kind condition body) x (.error e) z
  | roundLast {kind : LoopKind} {condition : Expr} {body : Block} {x y z : Store σ}
      (ran : Executes host (.block body) x (.ok ()) y)
      (checked : Checks host kind.keyword condition y (.ok (!kind.goesOn)) z) :
      Executes host (.rounds kind condition body) x (.ok ()) z
  | roundAgain {kind : LoopKind} {condition : Expr} {body : Block} {x y z w : Store σ}
      {result : Except EvalError Unit} (ran : Executes host (.block body) x (.ok ()) y)
      (checked : Checks host kind.keyword condition y (.ok kind.goesOn) z)
      (repeated : Executes host (.rounds kind condition body) z result w) :
      Executes host (.rounds kind condition body) x result w
  | choice {b : Branch} {x y : Store σ} {result : Except EvalError Unit}
      (chosen : Executes host (.branch b) x result y) :
      Executes host (.stmt (.branch b)) x result y
  | branchFailed {condition : Expr} {body : Block} {otherwise : Otherwise} {span : Span}
      {x y : Store σ} {e : EvalError} (checked : Checks host "if" condition x (.error e) y) :
      Executes host (.branch (.mk condition body otherwise span)) x (.error e) y
  | branchTrue {condition : Expr} {body : Block} {otherwise : Otherwise} {span : Span}
      {x y z : Store σ} {result : Except EvalError Unit}
      (checked : Checks host "if" condition x (.ok true) y)
      (ran : Executes host (.block body) y result z) :
      Executes host (.branch (.mk condition body otherwise span)) x result z
  | branchFalse {condition : Expr} {body : Block} {otherwise : Otherwise} {span : Span}
      {x y z : Store σ} {result : Except EvalError Unit}
      (checked : Checks host "if" condition x (.ok false) y)
      (ran : Executes host (.otherwise otherwise) y result z) :
      Executes host (.branch (.mk condition body otherwise span)) x result z
  | nothing {x : Store σ} : Executes host (.otherwise .nothing) x (.ok ()) x
  | otherwiseBlock {body : Block} {x y : Store σ} {result : Except EvalError Unit}
      (ran : Executes host (.block body) x result y) :
      Executes host (.otherwise (.block body)) x result y
  | otherwiseBranch {b : Branch} {x y : Store σ} {result : Except EvalError Unit}
      (ran : Executes host (.branch b) x result y) :
      Executes host (.otherwise (.branch b)) x result y
  | block {stmts : List Stmt} {span : Span} {x y : Store σ} {result : Except EvalError Unit}
      (ran : Executes host (.stmts stmts) x result y) :
      Executes host (.block (.mk stmts span)) x result y
  | nil {x : Store σ} : Executes host (.stmts []) x (.ok ()) x
  | cons {s : Stmt} {ss : List Stmt} {x y z : Store σ} {result : Except EvalError Unit}
      (first : Executes host (.stmt s) x (.ok ()) y)
      (others : Executes host (.stmts ss) y result z) :
      Executes host (.stmts (s :: ss)) x result z
  | consFailed {s : Stmt} {ss : List Stmt} {x y : Store σ} {e : EvalError}
      (first : Executes host (.stmt s) x (.error e) y) :
      Executes host (.stmts (s :: ss)) x (.error e) y

/-- Running a program: its statements, and the flush of the sink, which fails only by itself. -/
inductive Runs (host : Host σ) (program : Program) :
    Store σ → Except EvalError Unit → Store σ → Prop where
  | failed {x y : Store σ} {e : EvalError}
      (ran : Executes host (.stmts program.stmts) x (.error e) y) : Runs host program x (.error e) y
  | finished {x y : Store σ} (ran : Executes host (.stmts program.stmts) x (.ok ()) y) :
      Runs host program x y.sink.flush y

end TinyScript
