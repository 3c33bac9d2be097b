import TinyScript.Proofs.Language

/-!
# Paths of programs

A path leads from a statement of a program down to a leaf.  The limits on
brackets and on heights of expressions bound the statements, blocks and
expressions on a path.  Neither limit counts the links from a branch to the
branch that is its alternative, and nothing else does.
-/

namespace TinyScript

inductive Level where
  | stmt
  | block
  | elseIf
  | expr
  deriving DecidableEq, Repr

/-- The paths of a node, given those of the nodes below it; a node without any is a leaf. -/
def through (level : Level) : List (List Level) → List (List Level)
  | [] => [[level]]
  | paths => paths.map (level :: ·)

theorem mem_through {level : Level} {paths : List (List Level)} {path : List Level}
    (mem : path ∈ through level paths) :
    path = [level] ∨ ∃ rest ∈ paths, path = level :: rest := by
  cases paths with
  | nil => exact .inl (List.mem_singleton.mp mem)
  | cons first others =>
      obtain ⟨rest, inside, same⟩ := List.mem_map.mp mem
      exact .inr ⟨rest, inside, same.symm⟩

/-- Every path below a node is part of one through it. -/
theorem cons_mem_through (level : Level) {paths : List (List Level)} {path : List Level}
    (mem : path ∈ paths) : level :: path ∈ through level paths := by
  cases paths with
  | nil => cases mem
  | cons first others => exact List.mem_map_of_mem mem

mutual

def Expr.paths : Expr → List (List Level)
  | .const _ _ => [[.expr]]
  | .ident _ _ => [[.expr]]
  | .call _ args _ => through .expr (argPaths args)
  | .additive left _ right _ => through .expr (left.paths ++ right.paths)
  | .comparison left _ right _ => through .expr (left.paths ++ right.paths)
  | .paren inner _ => through .expr inner.paths

def argPaths : List Expr → List (List Level)
  | [] => []
  | e :: es => e.paths ++ argPaths es

end

mutual

def Stmt.paths : Stmt → List (List Level)
  | .assign _ value _ => through .stmt value.paths
  | .call _ args _ => through .stmt (argPaths args)
  | .loop _ condition body otherwise _ =>
      through .stmt (condition.paths ++ (body.paths ++ otherwise.paths))
  | .branch b => through .stmt b.paths

def Block.paths : Block → List (List Level)
  | .mk stmts _ => through .block (stmtPaths stmts)

/-- The paths below a branch, which is either a statement or a link. -/
def Branch.paths : Branch → List (List Level)
  | .mk condition body otherwise _ => condition.paths ++ (body.paths ++ otherwise.paths)

/-- The paths of an alternative; a further branch is a link. -/
def Otherwise.paths : Otherwise → List (List Level)
  | .nothing => []
  | .block body => body.paths
  | .branch b => through .elseIf b.paths

def stmtPaths : List Stmt → List (List Level)
  | [] => []
  | s :: ss => s.paths ++ stmtPaths ss

end

def Program.paths (program : Program) : List (List Level) := stmtPaths program.stmts

/-- No path has more than `most` levels, links apart. -/
def Bounded (most : Nat) (paths : List (List Level)) : Prop :=
  ∀ path ∈ paths, path.length ≤ most + path.count .elseIf

namespace Bounded

variable {m n : Nat} {paths others : List (List Level)}

theorem mono (bounded : Bounded m paths) (le : m ≤ n) : Bounded n paths := by
  intro path mem
  have short := bounded path mem
  omega

theorem append (first : Bounded m paths) (second : Bounded n others) :
    Bounded (max m n) (paths ++ others) := by
  intro path mem
  rcases List.mem_append.mp mem with mem | mem
  · have short := first path mem
    omega
  · have short := second path mem
    omega

/-- A node adds a level, unless it is a link. -/
theorem node (bounded : Bounded m paths) (level : Level)
    (counted : level = .elseIf ∧ m ≤ n ∨ m + 1 ≤ n) : Bounded n (through level paths) := by
  intro path mem
  rcases mem_through mem with rfl | ⟨rest, inside, rfl⟩
  · rcases counted with ⟨rfl, _⟩ | more
    · rw [List.length_singleton, List.count_singleton_self]
      omega
    · rw [List.length_singleton]
      omega
  · have short := bounded rest inside
    rcases counted with ⟨rfl, le⟩ | more
    · rw [List.length_cons, List.count_cons_self]
      omega
    · have kept : rest.count .elseIf ≤ (level :: rest).count .elseIf :=
        List.count_le_count_cons
      rw [List.length_cons]
      omega

end Bounded

mutual

theorem bounded_expr : (e : Expr) → Bounded e.height e.paths
  | .const literal span => by simp [Bounded, Expr.paths, Expr.height]
  | .ident name span => by simp [Bounded, Expr.paths, Expr.height]
  | .call callee args span => by
      rw [Expr.paths, Expr.height]
      exact (bounded_args args).node .expr (.inr (Nat.le_refl _))
  | .additive left op right span => by
      rw [Expr.paths, Expr.height]
      exact ((bounded_expr left).append (bounded_expr right)).node .expr (.inr (Nat.le_refl _))
  | .comparison left op right span => by
      rw [Expr.paths, Expr.height]
      exact ((bounded_expr left).append (bounded_expr right)).node .expr (.inr (Nat.le_refl _))
  | .paren inner span => by
      rw [Expr.paths, Expr.height]
      exact (bounded_expr inner).node .expr (.inr (Nat.le_refl _))

theorem bounded_args : (es : List Expr) → Bounded (tallest es) (argPaths es)
  | [] => List.forall_mem_nil _
  | e :: es => by
      rw [argPaths, tallest]
      exact (bounded_expr e).append (bounded_args es)

end

mutual

/-- A statement inside of another takes a bracket, and with its block two levels. -/
theorem bounded_stmt : (s : Stmt) → Bounded (2 * s.brackets + s.tallest + 1) s.paths
  | .assign target value span => by
      rw [Stmt.paths, Stmt.brackets, Stmt.tallest]
      exact (bounded_expr value).node .stmt (.inr (by omega))
  | .call callee args span => by
      rw [Stmt.paths, Stmt.brackets, Stmt.tallest]
      exact (bounded_args args).node .stmt (.inr (by omega))
  | .loop kind condition body otherwise span => by
      rw [Stmt.paths, Stmt.brackets, Stmt.tallest]
      have inside := (bounded_block body).append (bounded_otherwise otherwise)
      exact ((bounded_expr condition).append inside).node .stmt (.inr (by omega))
  | .branch b => by
      rw [Stmt.paths, Stmt.brackets, Stmt.tallest]
      exact (bounded_branch b).node .stmt (.inr (by omega))

theorem bounded_block : (b : Block) → Bounded (2 * b.brackets + b.tallest) b.paths
  | .mk stmts span => by
      rw [Block.paths, Block.brackets, Block.tallest]
      exact (bounded_stmts stmts).node .block (.inr (by omega))

theorem bounded_branch : (b : Branch) → Bounded (2 * b.brackets + b.tallest) b.paths
  | .mk condition body otherwise span => by
      rw [Branch.paths, Branch.brackets, Branch.tallest]
      have inside := (bounded_block body).append (bounded_otherwise otherwise)
      exact ((bounded_expr condition).append inside).mono (by omega)

theorem bounded_otherwise : (o : Otherwise) → Bounded (2 * o.brackets + o.tallest) o.paths
  | .nothing => List.forall_mem_nil _
  | .block body => bounded_block body
  | .branch b => by
      rw [Otherwise.paths, Otherwise.brackets, Otherwise.tallest]
      exact (bounded_branch b).node .elseIf (.inl ⟨rfl, Nat.le_refl _⟩)

theorem bounded_stmts : (ss : List Stmt) →
    Bounded (2 * mostBracketsOf ss + tallestOf ss + 1) (stmtPaths ss)
  | [] => List.forall_mem_nil _
  | s :: ss => by
      rw [stmtPaths, mostBracketsOf, tallestOf]
      exact ((bounded_stmt s).append (bounded_stmts ss)).mono (by omega)

end

/-- The paths of a well-shaped program are bounded, links apart. -/
theorem Program.WellShaped.bounded {program : Program} (wellShaped : program.WellShaped) :
    Bounded (2 * Nesting.maxOpen + maxHeight + 1) program.paths := by
  have low := wellShaped.low
  have shallow := wellShaped.shallow
  exact (bounded_stmts program.stmts).mono (by omega)

/-! ## Chains of branches -/

/-- A branch with so many further branches as alternatives, one after the other. -/
def chain : Nat → Branch
  | 0 => .mk (.ident "a" default) (.mk [] default) .nothing default
  | links + 1 => .mk (.ident "a" default) (.mk [] default) (.branch (chain links)) default

/-- However long a chain is, it nests one bracket and holds expressions of one level. -/
theorem chain_shaped (links : Nat) :
    (chain links).Shaped ∧ (chain links).tallest = 1 ∧ (chain links).brackets = 1 := by
  have isName : IsName "a" := ⟨⟨'a', [], by decide, by decide, by simp⟩, by decide⟩
  induction links with
  | zero => exact ⟨⟨isName, trivial, trivial⟩, by decide, by decide⟩
  | succ links ih =>
      obtain ⟨shaped, tallest, brackets⟩ := ih
      refine ⟨⟨isName, trivial, shaped⟩, ?_, ?_⟩
      · rw [chain, Branch.tallest, Otherwise.tallest, tallest]
        decide
      · rw [chain, Branch.brackets, Otherwise.brackets, brackets]
        decide

def chainProgram (links : Nat) : Program := ⟨[.branch (chain links)], default⟩

theorem chainProgram_wellShaped (links : Nat) : (chainProgram links).WellShaped := by
  obtain ⟨shaped, tallest, brackets⟩ := chain_shaped links
  refine ⟨⟨shaped, trivial⟩, ?_, ?_⟩
  · rw [chainProgram, tallestOf, tallestOf, Stmt.tallest, tallest]
    decide
  · rw [chainProgram, mostBracketsOf, mostBracketsOf, Stmt.brackets, brackets]
    decide

/-- A branch that looks like a chain has a path through all its links. -/
theorem path_of_chain {links : Nat} {b : Branch} (same : b.erase = (chain links).erase) :
    ∃ path ∈ b.paths, links ≤ path.length := by
  induction links generalizing b with
  | zero =>
      obtain ⟨condition, ⟨stmts, _⟩, otherwise, span⟩ := b
      have some : ∃ path, path ∈ through .block (stmtPaths stmts) := by
        cases stmtPaths stmts with
        | nil => exact ⟨_, List.mem_cons_self⟩
        | cons path others => exact ⟨_, cons_mem_through .block List.mem_cons_self⟩
      obtain ⟨path, mem⟩ := some
      refine ⟨path, ?_, Nat.zero_le _⟩
      exact List.mem_append_right _ (List.mem_append_left _ mem)
  | succ links ih =>
      obtain ⟨condition, body, otherwise, span⟩ := b
      rw [chain, Branch.erase, Branch.erase, Branch.mk.injEq] at same
      cases otherwise with
      | nothing => cases same.2.2.1
      | block inner => cases same.2.2.1
      | branch further =>
          obtain ⟨path, mem, long⟩ := ih (Otherwise.branch.inj same.2.2.1)
          refine ⟨.elseIf :: path, ?_, Nat.succ_le_succ long⟩
          exact List.mem_append_right _ (List.mem_append_right _ (cons_mem_through .elseIf mem))

/-- A program that looks like one chain has a path longer than the chain. -/
theorem path_of_chainProgram {links : Nat} {program : Program}
    (same : program.erase = (chainProgram links).erase) :
    ∃ path ∈ program.paths, links < path.length := by
  obtain ⟨stmts, span⟩ := program
  have sameStmts : eraseStmts stmts = [.branch (chain links).erase] := congrArg Program.stmts same
  cases stmts with
  | nil => cases sameStmts
  | cons s ss =>
      rw [eraseStmts, List.cons.injEq] at sameStmts
      cases s with
      | branch b =>
          obtain ⟨path, mem, long⟩ := path_of_chain (Stmt.branch.inj sameStmts.1)
          refine ⟨.stmt :: path, ?_, Nat.succ_le_succ long⟩
          exact List.mem_append_left _ (cons_mem_through .stmt mem)
      | _ => cases sameStmts.1

/-- Chains of every length are read. -/
theorem parse_chain (links : Nat) :
    ∃ read, Source.parse ⟨"chain", (chainProgram links).render⟩ = .ok read ∧
      read.erase = (chainProgram links).erase :=
  parse_of_rendered (chainProgram_wellShaped links) (Program.renderedBy_render _)

/--
Reading bounds the statements, blocks and expressions on every path, but not
the links between branches: the paths of a family of scripts are bounded if
and only if the numbers of links on them are.
-/
theorem paths_bounded_iff_links_bounded (scripts : Source → Prop) :
    ((∃ bound, ∀ source program, scripts source → source.parse = .ok program →
        ∀ path ∈ program.paths, path.length ≤ bound) ↔
      ∃ links, ∀ source program, scripts source → source.parse = .ok program →
        ∀ path ∈ program.paths, path.count .elseIf ≤ links) ∧
    ∀ source program, scripts source → source.parse = .ok program →
      ∀ path ∈ program.paths, path.length ≤ 385 + path.count .elseIf := by
  have counted : ∀ source program, scripts source → source.parse = .ok program →
      ∀ path ∈ program.paths, path.length ≤ 385 + path.count .elseIf :=
    fun _ _ _ parsed => (rendered_of_parse parsed).1.bounded
  refine ⟨⟨?_, ?_⟩, counted⟩
  · rintro ⟨bound, bounded⟩
    refine ⟨bound, fun source program member parsed path mem => ?_⟩
    exact Nat.le_trans List.count_le_length (bounded source program member parsed path mem)
  · rintro ⟨links, few⟩
    refine ⟨385 + links, fun source program member parsed path mem => ?_⟩
    have short := counted source program member parsed path mem
    have linked := few source program member parsed path mem
    omega

/-- No number bounds the paths of all scripts: chains of every length are read. -/
theorem paths_unbounded :
    ¬ ∃ bound, ∀ (source : Source) (program : Program), source.parse = .ok program →
      ∀ path ∈ program.paths, path.length ≤ bound := by
  rintro ⟨bound, bounded⟩
  obtain ⟨read, parsed, same⟩ := parse_chain bound
  obtain ⟨path, mem, long⟩ := path_of_chainProgram same
  have short := bounded _ read parsed path mem
  omega

end TinyScript
