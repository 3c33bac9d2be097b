import TinyScript.Proofs.Language
import TinyScript.Proofs.SafeEvaluation
import TinyScript.Run.HostFunction

/-!
# Safe runs

A script that was read never fails with an internal error, and with enough
levels never with a stack overflow, as long as the functions of the host do
not raise these errors themselves.
-/

namespace TinyScript

variable {σ : Type}

mutual

def Expr.nodes : Expr → List Expr
  | .const literal span => [.const literal span]
  | .ident name span => [.ident name span]
  | .call callee args span => .call callee args span :: nodesOf args
  | .additive left op right span => .additive left op right span :: (left.nodes ++ right.nodes)
  | .comparison left op right span => .comparison left op right span :: (left.nodes ++ right.nodes)
  | .paren inner span => .paren inner span :: inner.nodes

def nodesOf : List Expr → List Expr
  | [] => []
  | e :: es => e.nodes ++ nodesOf es

end

mutual

def Stmt.nodes : Stmt → List Expr
  | .assign _ value _ => value.nodes
  | .call _ args _ => nodesOf args
  | .loop _ condition body otherwise _ => condition.nodes ++ (body.nodes ++ otherwise.nodes)
  | .branch b => b.nodes

def Block.nodes : Block → List Expr
  | .mk stmts _ => stmtNodes stmts

def Branch.nodes : Branch → List Expr
  | .mk condition body otherwise _ => condition.nodes ++ (body.nodes ++ otherwise.nodes)

def Otherwise.nodes : Otherwise → List Expr
  | .nothing => []
  | .block body => body.nodes
  | .branch b => b.nodes

def stmtNodes : List Stmt → List Expr
  | [] => []
  | s :: ss => s.nodes ++ stmtNodes ss

end

def Program.nodes (program : Program) : List Expr := stmtNodes program.stmts

mutual

theorem Expr.Shaped.node : {e : Expr} → e.Shaped → ∀ n ∈ e.nodes, n.Shaped
  | .const literal span, shaped => by simpa [Expr.nodes] using shaped
  | .ident name span, shaped => by simpa [Expr.nodes] using shaped
  | .call callee args span, shaped => by
      rw [Expr.nodes, List.forall_mem_cons]
      exact ⟨shaped, shaped_nodesOf shaped.2⟩
  | .additive left op right span, shaped => by
      rw [Expr.nodes, List.forall_mem_cons, List.forall_mem_append]
      exact ⟨shaped, shaped.2.2.1.node, shaped.2.2.2.node⟩
  | .comparison left op right span, shaped => by
      rw [Expr.nodes, List.forall_mem_cons, List.forall_mem_append]
      exact ⟨shaped, shaped.2.2.1.node, shaped.2.2.2.node⟩
  | .paren inner span, shaped => by
      have shapedInner : inner.Shaped := shaped
      rw [Expr.nodes, List.forall_mem_cons]
      exact ⟨shaped, shapedInner.node⟩

theorem shaped_nodesOf : {es : List Expr} → ShapedExprs es → ∀ n ∈ nodesOf es, n.Shaped
  | [], _ => List.forall_mem_nil _
  | e :: es, ⟨shaped, others⟩ => by
      rw [nodesOf, List.forall_mem_append]
      exact ⟨shaped.node, shaped_nodesOf others⟩

end

mutual

theorem Stmt.Shaped.node : {s : Stmt} → s.Shaped → ∀ n ∈ s.nodes, n.Shaped
  | .assign target value span, ⟨_, shaped⟩ => shaped.node
  | .call callee args span, ⟨_, shaped⟩ => shaped_nodesOf shaped
  | .loop kind condition body otherwise span, ⟨guard, inside, other⟩ => by
      rw [Stmt.nodes, List.forall_mem_append, List.forall_mem_append]
      exact ⟨guard.node, inside.node, other.node⟩
  | .branch b, shaped => by
      have shapedBranch : b.Shaped := shaped
      exact shapedBranch.node

theorem Block.Shaped.node : {b : Block} → b.Shaped → ∀ n ∈ b.nodes, n.Shaped
  | .mk _ _, shaped => shaped_stmtNodes shaped

theorem Branch.Shaped.node : {b : Branch} → b.Shaped → ∀ n ∈ b.nodes, n.Shaped
  | .mk condition body otherwise span, ⟨guard, inside, other⟩ => by
      rw [Branch.nodes, List.forall_mem_append, List.forall_mem_append]
      exact ⟨guard.node, inside.node, other.node⟩

theorem Otherwise.Shaped.node : {o : Otherwise} → o.Shaped → ∀ n ∈ o.nodes, n.Shaped
  | .nothing, _ => List.forall_mem_nil _
  | .block body, shaped => by
      have shapedBody : body.Shaped := shaped
      exact shapedBody.node
  | .branch b, shaped => by
      have shapedBranch : b.Shaped := shaped
      exact shapedBranch.node

theorem shaped_stmtNodes : {ss : List Stmt} → ShapedStmts ss → ∀ n ∈ stmtNodes ss, n.Shaped
  | [], _ => List.forall_mem_nil _
  | s :: ss, ⟨shaped, others⟩ => by
      rw [stmtNodes, List.forall_mem_append]
      exact ⟨shaped.node, shaped_stmtNodes others⟩

end

/--
The evaluator supports a node: a literal has a value or is an integer out of
range, and an operator stands in a node whose evaluation knows it.
-/
def Expr.Supported : Expr → Prop
  | .const literal _ => literal.Readable
  | .additive _ op _ _ => ∀ left right detail,
      op.arithmetic left right ≠ .error (.internalError detail)
  | .comparison _ op _ _ => ∀ left right detail,
      op.comparison left right ≠ .error (.internalError detail)
  | .ident _ _ | .call _ _ _ | .paren _ _ => True

/-- Well-shaped expressions are supported. -/
theorem Expr.Shaped.supported {e : Expr} (shaped : e.Shaped) : e.Supported := by
  cases e with
  | const literal span => exact Literal.IsLexical.readable shaped
  | additive left op right span =>
      intro l r detail failed
      rcases arithmetic_error shaped.1 failed with same | same <;> cases same
  | comparison left op right span =>
      intro l r detail failed
      cases comparison_error shaped.1 failed
  | _ => trivial

namespace Catalogue

variable {index : Nat} {args : List Value} {sink : Sink} {catalogue : Catalogue}

/-- A function of the catalogue fails because it is made to, or because it writes. -/
theorem invoke_error {e : EvalError}
    (failed : (invoke index args sink catalogue).result = .error e) :
    e.kind = .output ∨ ∃ f ∈ catalogue, f.behaviour = .fail e := by
  unfold invoke at failed
  split at failed
  · cases failed
  · next f found =>
      have mem : f ∈ catalogue := List.mem_of_getElem? found
      dsimp only at failed
      cases behaviour : f.behaviour with
      | fail e' =>
          rw [behaviour] at failed
          cases failed
          exact .inr ⟨f, mem, behaviour⟩
      | print =>
          rw [behaviour] at failed
          dsimp only at failed
          cases written : (sink.write (printed f.name args)).1 with
          | ok u =>
              rw [written] at failed
              cases failed
          | error e' =>
              rw [written] at failed
              cases failed
              exact .inl (Eval.write_error written)
      | _ =>
          rw [behaviour] at failed
          cases failed

/-- Calling a function of the catalogue changes nothing but the number of its calls. -/
theorem behaviour_invoke {f : HostFunction}
    (mem : f ∈ (invoke index args sink catalogue).state) :
    ∃ f' ∈ catalogue, f'.behaviour = f.behaviour := by
  have same : (invoke index args sink catalogue).state = catalogue ∨ ∃ f' ∈ catalogue,
      (invoke index args sink catalogue).state =
        catalogue.set index { f' with calls := f'.calls + 1 } := by
    unfold invoke
    split
    · exact .inl rfl
    · next f' found =>
        refine .inr ⟨f', List.mem_of_getElem? found, ?_⟩
        dsimp only
        split <;> rfl
  rcases same with same | ⟨f', mem', same⟩
  · rw [same] at mem
    exact ⟨f, mem, rfl⟩
  · rw [same] at mem
    rcases List.mem_or_eq_of_mem_set mem with mem | rfl
    · exact ⟨f, mem, rfl⟩
    · exact ⟨f', mem', rfl⟩

/-- The functions of a catalogue that fail, fail with errors of other kinds. -/
def Spares (kind : ErrorKind) (catalogue : Catalogue) : Prop :=
  ∀ f ∈ catalogue, ∀ e, f.behaviour = .fail e → e.kind ≠ kind

/-- The functions of such a catalogue spare their callers the errors, and it remains such. -/
theorem host_spares {kind : ErrorKind} (other : kind ≠ .output) :
    host.Spares kind (fun _ => True) (Spares kind) := by
  refine ⟨fun index args sink catalogue _ spares _ e failed => ?_, fun _ _ _ _ _ _ _ v _ => ?_,
    fun index args sink catalogue _ spares _ f mem e raised => ?_⟩
  · rcases invoke_error failed with same | ⟨f, mem, raised⟩
    · rw [same]
      exact Ne.symm other
    · exact spares f mem e raised
  · cases v with
    | native f => exact fun _ _ => trivial
    | _ => trivial
  · obtain ⟨f', mem', same⟩ := behaviour_invoke mem
    exact spares f' mem' e (same.trans raised)

/-- In every state over such a catalogue all functions are spared ones. -/
theorem within {kind : ErrorKind} {s : State Catalogue} (spares : Spares kind s.host) :
    s.Within (fun _ => True) (Spares kind) := by
  refine ⟨fun name v _ => ?_, spares⟩
  cases v with
  | native f => exact fun _ _ => trivial
  | _ => trivial

end Catalogue

/-! ## Scripts are safe -/

/--
A script never fails with an internal error, in whatever state and with
whatever budgets it is run, unless a function of the host raises one: every
literal and every operator of the tree is supported by the evaluator.
-/
theorem parsed_avoids_internalError {source : Source} {program : Program}
    (parsed : source.parse = .ok program) (setting : Setting σ) {known : Nat → Prop}
    {inv : σ → Prop} (spares : setting.host.Spares .internalError known inv) {s : State σ}
    (within : s.Within known inv) :
    (∀ detail s', evalProgram setting program s ≠ .error (.failed (.internalError detail)) s') ∧
      ∀ e ∈ program.nodes, e.Supported := by
  obtain ⟨wellShaped, _⟩ := rendered_of_parse parsed
  constructor
  · intro detail s' failed
    have outcome := avoids_program (.inl rfl) spares wellShaped.shaped within fun impossible => by
      cases impossible
    rw [failed] at outcome
    exact outcome rfl
  · intro e mem
    exact (shaped_stmtNodes wellShaped.shaped e mem).supported

/-- A run that calls a function of the host on a literal and a sum. -/
theorem parsed_avoids_internalError_echo :
    ∃ program, (Source.parse ⟨"echo", "x = echo(9 + \"a\");"⟩) = .ok program ∧
      (∀ detail s', evalProgram ⟨Catalogue.host, {}, 8⟩ program
          { env := Environment.builtins.define ⟨"echo", .host 0⟩, host := [⟨"echo", .echo, 0⟩] } ≠
        .error (.failed (.internalError detail)) s') ∧
      ∀ e ∈ program.nodes, e.Supported := by
  have accepted : (Source.parse ⟨"echo", "x = echo(9 + \"a\");"⟩).isOk = true := by decide +kernel
  cases parsed : Source.parse ⟨"echo", "x = echo(9 + \"a\");"⟩ with
  | error e =>
      rw [parsed] at accepted
      cases accepted
  | ok program =>
      refine ⟨program, rfl, ?_⟩
      refine parsed_avoids_internalError parsed _ (Catalogue.host_spares (by decide))
        (Catalogue.within ?_)
      intro f mem e raised
      rw [List.mem_singleton.mp mem] at raised
      cases raised

/--
A script never fails with a stack overflow, if no level is open before the run
and the budget allows one level for each bracket, each level of an expression
and the outermost statement, unless a function of the host raises one.
-/
theorem parsed_avoids_stackOverflow {source : Source} {program : Program}
    (parsed : source.parse = .ok program) {setting : Setting σ}
    (budget : 321 ≤ setting.limits.maxDepth) {known : Nat → Prop} {inv : σ → Prop}
    (spares : setting.host.Spares .stackOverflow known inv) {s : State σ}
    (within : s.Within known inv) (top : s.depth = 0) :
    ∀ limit s', evalProgram setting program s ≠ .error (.failed (.stackOverflow limit)) s' := by
  obtain ⟨wellShaped, _⟩ := rendered_of_parse parsed
  have levels : mostLevels program.stmts ≤ 321 := wellShaped.levels_le
  intro limit s' failed
  have room : Room .stackOverflow setting.limits s.depth (mostLevels program.stmts) := by
    intro _
    omega
  have outcome := avoids_program (.inr rfl) spares wellShaped.shaped within room
  rw [failed] at outcome
  exact outcome rfl

/-- A run with the smallest budget that suffices for every script. -/
theorem parsed_avoids_stackOverflow_count :
    ∃ program, (Source.parse ⟨"count", "if true \x7b n = (count()); \x7d"⟩) = .ok program ∧
      ∀ limit s', evalProgram ⟨Catalogue.host, { maxDepth := 321 }, 8⟩ program
          { env := Environment.builtins.define ⟨"count", .host 0⟩
            host := [⟨"count", .count, 0⟩] } ≠
        .error (.failed (.stackOverflow limit)) s' := by
  have accepted : (Source.parse ⟨"count", "if true \x7b n = (count()); \x7d"⟩).isOk = true := by
    decide +kernel
  cases parsed : Source.parse ⟨"count", "if true \x7b n = (count()); \x7d"⟩ with
  | error e =>
      rw [parsed] at accepted
      cases accepted
  | ok program =>
      refine ⟨program, rfl, ?_⟩
      refine parsed_avoids_stackOverflow parsed (Nat.le_refl 321)
        (Catalogue.host_spares (by decide)) (Catalogue.within ?_) rfl
      intro f mem e raised
      rw [List.mem_singleton.mp mem] at raised
      cases raised

end TinyScript
