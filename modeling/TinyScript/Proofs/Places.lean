import TinyScript.Proofs.Lockstep
import TinyScript.Proofs.Tracing

/-!
# Places of names

Every name that a script looks up stands in its text at the place where the
region of the node begins that looks it up: a node that looks up a name begins
with that name.
-/

namespace TinyScript

/-- A name stands at the place where a region begins, and it is not continued there. -/
def Placed (text : List Char) (mention : String × Span) : Prop :=
  IsName mention.1 ∧ ∃ c : Cursor, c.Within text ∧ mention.2.start = c.mark.position ∧
    ∃ rest, c.rest = mention.1.toList ++ rest ∧ Lexeme.continuesWord rest = false

def AllPlaced (text : List Char) (mentions : List (String × Span)) : Prop :=
  ∀ mention ∈ mentions, Placed text mention

section

variable {text : List Char}

theorem allPlaced_cons {mention : String × Span} {mentions : List (String × Span)} :
    AllPlaced text (mention :: mentions) ↔ Placed text mention ∧ AllPlaced text mentions :=
  List.forall_mem_cons

theorem allPlaced_append {first second : List (String × Span)} :
    AllPlaced text (first ++ second) ↔ AllPlaced text first ∧ AllPlaced text second :=
  List.forall_mem_append

theorem allPlaced_mentionsOf {es : List Expr} :
    AllPlaced text (mentionsOf es) ↔ ∀ e ∈ es, AllPlaced text e.mentions := by
  induction es with
  | nil => simp [mentionsOf, AllPlaced]
  | cons e es ih => rw [mentionsOf, allPlaced_append, ih, List.forall_mem_cons]

theorem allPlaced_binary (left : Expr) (op : BinOp) (right : Expr)
    (first : AllPlaced text left.mentions)
    (second : AllPlaced text right.mentions) :
    AllPlaced text (Expr.binary left op right).mentions := by
  unfold Expr.binary
  dsimp only
  split <;> exact allPlaced_append.2 ⟨first, second⟩

end

mutual

/-- A statement looks up the names that its expressions look up. -/
theorem Stmt.mentions_eq : (s : Stmt) → s.mentions = s.expressions.flatMap Expr.mentions
  | .assign target value span => by simp [Stmt.mentions, Stmt.expressions]
  | .call callee args span => by simp [Stmt.mentions, Stmt.expressions, Expr.mentions]
  | .loop kind condition body otherwise span => by
      rw [Stmt.mentions, body.mentions_eq, otherwise.mentions_eq]
      simp [Stmt.expressions]
  | .branch b => b.mentions_eq

theorem Block.mentions_eq : (b : Block) → b.mentions = b.expressions.flatMap Expr.mentions
  | .mk stmts _ => stmtMentions_eq stmts

theorem Branch.mentions_eq : (b : Branch) → b.mentions = b.expressions.flatMap Expr.mentions
  | .mk condition body otherwise span => by
      rw [Branch.mentions, body.mentions_eq, otherwise.mentions_eq]
      simp [Branch.expressions]

theorem Otherwise.mentions_eq : (o : Otherwise) →
    o.mentions = o.expressions.flatMap Expr.mentions
  | .nothing => rfl
  | .block body => body.mentions_eq
  | .branch b => b.mentions_eq

theorem stmtMentions_eq : (ss : List Stmt) →
    stmtMentions ss = (stmtExpressions ss).flatMap Expr.mentions
  | [] => rfl
  | s :: ss => by
      rw [stmtMentions, s.mentions_eq, stmtMentions_eq ss, stmtExpressions, List.flatMap_append]

end

open Recognizer in
/-- A name stands where it is read, and so a node that begins there begins with the name. -/
theorem Grammar.placed_of_identifier {text : List Char} {c c' : Cursor} (within : c.Within text)
    {ident : Ident} (read : identifier.Reads c ident c') (stop : Mark) :
    Placed text (ident.name, c.mark.spanTo stop) := by
  obtain ⟨found, _⟩ := reads_identifier.1 read
  obtain ⟨split, isName, ends⟩ := Lexeme.identifier_eq_some_iff.1 found
  rw [String.ofList_toList] at isName
  exact ⟨isName, c, within, rfl, c'.rest, split, ends⟩

/-- The names of an expression are placed by reading it. -/
theorem inherited_placed (text : List Char) :
    Grammar.Inherited text fun e => AllPlaced text e.mentions where
  constant c c' e within read := by
    obtain ⟨literal, rfl, _⟩ := Grammar.leads_constant read
    exact List.forall_mem_nil _
  name c c' ident within read :=
    List.forall_mem_singleton.2 (Grammar.placed_of_identifier within read c'.mark)
  call c c₁ callee args stop within read placed :=
    allPlaced_cons.2 ⟨Grammar.placed_of_identifier within read stop, allPlaced_mentionsOf.2 placed⟩
  paren c c₁ inner stop within opened placed := placed
  binary := allPlaced_binary

/-- Every name that a script looks up stands at the beginning of the node that does it. -/
theorem placed_of_parse {source : Source} {program : Program}
    (parsed : source.parse = .ok program) :
    AllPlaced source.text.toList program.mentions := by
  obtain ⟨_, recognized, _⟩ := ofText_eq_ok_iff.1 (parse_eq_ok_iff.1 parsed)
  have placed := (inherited_placed source.text.toList).of_recognize recognized
  rw [Program.mentions, stmtMentions_eq]
  intro mention mem
  obtain ⟨e, expression, inside⟩ := List.mem_flatMap.1 mem
  exact placed e expression mention inside

end TinyScript
