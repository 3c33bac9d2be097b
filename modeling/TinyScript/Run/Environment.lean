import TinyScript.Value.Basic

/-!
# Environments

One flat map from names to values.  The bindings are kept in the order of the
names, by code points, so two environments that bind the same names to the
same values are equal.
-/

namespace TinyScript

def Increasing (bindings : List (String × Value)) : Prop :=
  bindings.Pairwise fun a b => a.1 < b.1

def insertBinding (name : String) (value : Value) : List (String × Value) → List (String × Value)
  | [] => [(name, value)]
  | (n, v) :: rest =>
      if name < n then (name, value) :: (n, v) :: rest
      else if name = n then (name, value) :: rest
      else (n, v) :: insertBinding name value rest

/-- Binding a name changes the value of that name only. -/
theorem lookup_insertBinding (name : String) (value : Value) (other : String)
    (bindings : List (String × Value)) :
    (insertBinding name value bindings).lookup other =
      if other = name then some value else bindings.lookup other := by
  induction bindings with
  | nil => by_cases same : other = name <;> simp [insertBinding, same]
  | cons head rest ih =>
      obtain ⟨n, v⟩ := head
      unfold insertBinding
      split
      · by_cases same : other = name
        · simp [same]
        · simp [List.lookup_cons, same, beq_false_of_ne same]
      · split
        · next eq =>
            subst eq
            by_cases same : other = name
            · simp [same]
            · simp [List.lookup_cons, same, beq_false_of_ne same]
        · next ne =>
            by_cases first : other = n
            · subst first
              simp [Ne.symm ne]
            · simpa [List.lookup_cons, beq_false_of_ne first] using ih

theorem mem_insertBinding {name : String} {value : Value} {b : String × Value}
    {bindings : List (String × Value)} (h : b ∈ insertBinding name value bindings) :
    b = (name, value) ∨ b ∈ bindings := by
  induction bindings with
  | nil => simpa [insertBinding] using h
  | cons head rest ih =>
      obtain ⟨n, v⟩ := head
      unfold insertBinding at h
      split at h
      · simpa using h
      · split at h
        · rcases List.mem_cons.1 h with h | h
          · exact .inl h
          · exact .inr (List.mem_cons_of_mem _ h)
        · rcases List.mem_cons.1 h with h | h
          · exact .inr (h ▸ List.mem_cons_self)
          · exact (ih h).imp id (List.mem_cons_of_mem _)

theorem Increasing.insertBinding {bindings : List (String × Value)} (h : Increasing bindings)
    (name : String) (value : Value) : Increasing (insertBinding name value bindings) := by
  induction bindings with
  | nil => simp [Increasing, TinyScript.insertBinding]
  | cons head rest ih =>
      obtain ⟨n, v⟩ := head
      obtain ⟨below, ordered⟩ := List.pairwise_cons.1 h
      unfold TinyScript.insertBinding
      split
      · next lt =>
          refine List.pairwise_cons.2 ⟨fun b mem => ?_, h⟩
          rcases List.mem_cons.1 mem with rfl | mem
          · exact lt
          · exact Std.lt_trans lt (below b mem)
      · next notLt =>
          split
          · next eq =>
              subst eq
              exact List.pairwise_cons.2 ⟨below, ordered⟩
          · next ne =>
              refine List.pairwise_cons.2 ⟨fun b mem => ?_, ih ordered⟩
              rcases mem_insertBinding mem with rfl | mem
              · exact Std.lt_of_le_of_ne (Std.not_lt.1 notLt) (Ne.symm ne)
              · exact below b mem

structure Environment where
  bindings : List (String × Value)
  increasing : Increasing bindings

namespace Environment

def empty : Environment := ⟨[], .nil⟩

def get? (env : Environment) (name : String) : Option Value := env.bindings.lookup name

/-- Bind a name, in place of a binding that it may have. -/
def assign (env : Environment) (name : String) (value : Value) : Environment :=
  ⟨insertBinding name value env.bindings, env.increasing.insertBinding name value⟩

/-- A name that was just bound has its new value, and every other name the value it had. -/
theorem get?_assign (env : Environment) (name : String) (value : Value) (other : String) :
    (env.assign name value).get? other = if other = name then some value else env.get? other :=
  lookup_insertBinding name value other env.bindings

def define (env : Environment) (f : Native) : Environment := env.assign f.name (.native f)

def builtins : Environment := empty.define ⟨"write", .write⟩

end Environment

end TinyScript
