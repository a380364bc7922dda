/-! Clauses over numbered variables and a search for values that satisfy them. The search
decides a literal at a time and simplifies the clauses, so it always ends with a definite
answer. It stands in for any solver with that answer: what is proved of arguments holds for
every correct one. -/
namespace Turnstile

structure Literal where
  var : Nat
  positive : Bool
  deriving DecidableEq, Repr

namespace Literal

def negate (l : Literal) : Literal :=
  ⟨l.var, !l.positive⟩

def holds (a : Nat → Bool) (l : Literal) : Bool :=
  a l.var == l.positive

end Literal

abbrev Clause := List Literal

namespace Clause

def holds (a : Nat → Bool) (c : Clause) : Bool :=
  c.any (·.holds a)

/-- A clause with repeated literals merged; none if it holds a literal and its opposite,
as it is then always true. -/
def reduce? (c : Clause) : Option Clause :=
  if c.any fun l => c.contains l.negate then none else some c.eraseDups

/-- The clauses that are left once `l` is true: those that hold it are satisfied, and the
others lose its opposite. -/
def assign (l : Literal) (cs : List Clause) : List Clause :=
  (cs.filter fun c => !c.contains l).map fun c => c.filter (· ≠ l.negate)

def size (cs : List Clause) : Nat :=
  cs.flatten.length

/-- A clause to decide on: an empty one if there is one, else one with a single literal,
else the first. -/
def pick? (cs : List Clause) : Option Clause :=
  (cs.find? List.isEmpty).or ((cs.find? fun c => c.length = 1).or cs.head?)

theorem mem_of_pick? {cs : List Clause} {c : Clause} (h : pick? cs = some c) : c ∈ cs := by
  simp only [pick?, Option.or_eq_some_iff] at h
  rcases h with h | ⟨_, h | ⟨_, h⟩⟩
  · exact List.mem_of_find?_eq_some h
  · exact List.mem_of_find?_eq_some h
  · exact List.mem_of_head? h

theorem size_assign_le (l : Literal) (cs : List Clause) : size (assign l cs) ≤ size cs := by
  induction cs with
  | nil => simp [assign, size]
  | cons c cs ih =>
    have hf := List.length_filter_le (fun x => decide (x ≠ l.negate)) c
    by_cases hc : c.contains l = true
    · simp only [assign, size, List.filter_cons, hc] at ih ⊢
      simp only [Bool.not_true, Bool.false_eq_true, if_false, List.flatten_cons, List.length_append]
      omega
    · simp only [assign, size, List.filter_cons, hc] at ih ⊢
      simp only [Bool.not_false, if_true, List.map_cons, List.flatten_cons, List.length_append]
      omega

/-- Deciding a literal of some clause, or its opposite, leaves fewer literals. -/
theorem size_assign_lt {l : Literal} {c : Clause} {cs : List Clause} (hc : c ∈ cs)
    (hl : l ∈ c ∨ l.negate ∈ c) : size (assign l cs) < size cs := by
  induction cs with
  | nil => simp at hc
  | cons d cs ih =>
    have hle := size_assign_le l cs
    have hf := List.length_filter_le (fun x => decide (x ≠ l.negate)) d
    by_cases hd : d.contains l = true
    · have hpos : 0 < d.length := List.length_pos_of_mem (List.contains_iff_mem.mp hd)
      simp only [assign, size, List.filter_cons, hd] at hle ⊢
      simp only [Bool.not_true, Bool.false_eq_true, if_false, List.flatten_cons, List.length_append]
      omega
    · rcases List.mem_cons.mp hc with rfl | hmem
      · have hneg : l.negate ∈ c := by
          rcases hl with h | h
          · exact absurd (List.contains_iff_mem.mpr h) hd
          · exact h
        have hlt : (c.filter fun x => decide (x ≠ l.negate)).length < c.length := by
          refine List.length_filter_lt_length_iff_exists.mpr ⟨l.negate, hneg, by simp⟩
        simp only [assign, size, List.filter_cons, hd] at hle ⊢
        simp only [Bool.not_false, if_true, List.map_cons, List.flatten_cons, List.length_append]
        omega
      · have hlt := ih hmem
        simp only [assign, size, List.filter_cons, hd] at hlt ⊢
        simp only [Bool.not_false, if_true, List.map_cons, List.flatten_cons, List.length_append]
        omega

def search (cs : List Clause) : Option (List Literal) :=
  match _h : pick? cs with
  | none => some []
  | some [] => none
  | some (l :: _) =>
    match search (assign l cs) with
    | some found => some (l :: found)
    | none => (search (assign l.negate cs)).map (l.negate :: ·)
termination_by size cs
decreasing_by
  · exact size_assign_lt (mem_of_pick? _h) (.inl List.mem_cons_self)
  · refine size_assign_lt (mem_of_pick? _h) (.inr ?_)
    simp [Literal.negate]

def greatestVar (cs : List Clause) : Nat :=
  cs.flatten.foldl (fun n l => max n l.var) 0

end Clause

/-- A procedure that looks for values under which all clauses hold. Its answer lists the
values of the variables 1, 2 and so on up to the greatest one. -/
abbrev Solver := List Clause → Option (List Bool)

namespace Solver

/-- The value of a variable in an answer. Variables beyond its end are false. -/
def value (values : List Bool) (v : Nat) : Bool :=
  values.getD (v - 1) false

def search : Solver := fun cs =>
  (Clause.search cs).map fun found =>
    (List.range (Clause.greatestVar cs)).map fun i => found.contains ⟨i + 1, true⟩

end Solver

end Turnstile
