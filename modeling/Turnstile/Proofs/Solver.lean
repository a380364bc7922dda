import Mathlib.Data.List.Pairwise
import Turnstile.Clause

/-! A solver is correct if it answers whenever clauses can be satisfied, and only then, with
values that satisfy them. The search is a correct solver: it decides each variable once, and
deciding a literal keeps what the clauses say. Its speed is not considered. -/
namespace Turnstile

namespace Literal

@[simp] theorem var_negate (l : Literal) : l.negate.var = l.var := rfl

@[simp] theorem holds_negate (a : Nat → Bool) (l : Literal) : l.negate.holds a = !l.holds a := by
  cases l with
  | mk v positive => cases positive <;> cases value : a v <;> simp [negate, holds, value]

theorem eq_or_eq_negate {l m : Literal} (same : l.var = m.var) : l = m ∨ l = m.negate := by
  cases l; cases m
  simp only at same
  subst same
  rename_i p q
  cases p <;> cases q <;> simp [negate]

end Literal

namespace Clause

def Satisfied (a : Nat → Bool) (cs : List Clause) : Prop :=
  ∀ c ∈ cs, c.holds a = true

theorem holds_iff {a : Nat → Bool} {c : Clause} : c.holds a = true ↔ ∃ l ∈ c, l.holds a = true := by
  simp [holds]

/-- Once `l` is true, what is left of some clauses holds exactly when they do. -/
theorem satisfied_assign {a : Nat → Bool} {l : Literal} (decided : l.holds a = true)
    (cs : List Clause) : Satisfied a (assign l cs) ↔ Satisfied a cs := by
  constructor
  · intro left c member
    by_cases satisfied : l ∈ c
    · exact holds_iff.mpr ⟨l, satisfied, decided⟩
    · have rest := left (c.filter (· ≠ l.negate)) (by
        refine List.mem_map.mpr ⟨c, List.mem_filter.mpr ⟨member, ?_⟩, rfl⟩
        simpa using satisfied)
      obtain ⟨m, remains, truth⟩ := holds_iff.mp rest
      exact holds_iff.mpr ⟨m, (List.mem_filter.mp remains).1, truth⟩
  · intro all c member
    obtain ⟨d, remains, rfl⟩ := List.mem_map.mp member
    obtain ⟨m, inClause, truth⟩ := holds_iff.mp (all d (List.mem_filter.mp remains).1)
    refine holds_iff.mpr ⟨m, List.mem_filter.mpr ⟨inClause, ?_⟩, truth⟩
    rw [decide_eq_true_eq]
    rintro rfl
    simp [decided] at truth

/-- No clause that is left mentions the variable that was decided. -/
theorem var_ne_of_mem_assign {l m : Literal} {cs : List Clause} {c : Clause}
    (member : c ∈ assign l cs) (inClause : m ∈ c) : m.var ≠ l.var := by
  intro same
  obtain ⟨d, remains, rfl⟩ := List.mem_map.mp member
  obtain ⟨inOld, other⟩ := List.mem_filter.mp inClause
  have undecided := (List.mem_filter.mp remains).2
  rcases Literal.eq_or_eq_negate same with rfl | rfl
  · simp_all
  · simp at other

theorem mem_of_mem_assign {l m : Literal} {cs : List Clause} {c : Clause}
    (member : c ∈ assign l cs) (inClause : m ∈ c) : ∃ d ∈ cs, m ∈ d := by
  obtain ⟨d, remains, rfl⟩ := List.mem_map.mp member
  exact ⟨d, (List.mem_filter.mp remains).1, (List.mem_filter.mp inClause).1⟩

theorem eq_nil_of_pick?_eq_none {cs : List Clause} (nothing : pick? cs = none) : cs = [] := by
  simp only [pick?, Option.or_eq_none_iff] at nothing
  exact List.head?_eq_none_iff.mp nothing.2.2

/-- What a list of literals has to be for a search to answer with it: each variable is a
variable of the clauses and is decided once, and the clauses hold when the literals do. -/
structure Answers (cs : List Clause) (found : List Literal) : Prop where
  vars : ∀ l ∈ found, ∃ c ∈ cs, ∃ m ∈ c, m.var = l.var
  distinct : found.Pairwise fun l m => l.var ≠ m.var
  holds : ∀ a, (∀ l ∈ found, l.holds a = true) → Satisfied a cs

theorem Answers.cons {l : Literal} (occurs : ∃ c ∈ cs, ∃ m ∈ c, m.var = l.var)
    (answers : Answers (assign l cs) found) : Answers cs (l :: found) where
  vars := by
    refine List.forall_mem_cons.mpr ⟨occurs, fun m member => ?_⟩
    obtain ⟨c, remains, n, inClause, same⟩ := answers.vars m member
    obtain ⟨d, inOld, inClause⟩ := mem_of_mem_assign remains inClause
    exact ⟨d, inOld, n, inClause, same⟩
  distinct := by
    refine List.pairwise_cons.mpr ⟨fun m member same => ?_, answers.distinct⟩
    obtain ⟨c, remains, n, inClause, sameVar⟩ := answers.vars m member
    exact var_ne_of_mem_assign remains inClause (sameVar.trans same.symm)
  holds := by
    intro a decided
    obtain ⟨first, decided⟩ := List.forall_mem_cons.mp decided
    exact (satisfied_assign first cs).mp (answers.holds a decided)

theorem answers_of_search {cs : List Clause} {found : List Literal}
    (result : search cs = some found) : Answers cs found := by
  fun_induction search cs generalizing found with
  | case1 cs nothing =>
    obtain rfl := Option.some.inj result
    obtain rfl := eq_nil_of_pick?_eq_none nothing
    exact ⟨by simp, .nil, by simp [Satisfied]⟩
  | case2 cs empty => simp at result
  | case3 cs l tail picked rest recursive ih =>
    obtain rfl := Option.some.inj result
    exact .cons ⟨_, mem_of_pick? picked, l, List.mem_cons_self, rfl⟩ (ih recursive)
  | case4 cs l tail picked failed ih ih' =>
    obtain ⟨rest, recursive, rfl⟩ := Option.map_eq_some_iff.mp result
    exact .cons ⟨_, mem_of_pick? picked, l, List.mem_cons_self, rfl⟩ (ih' recursive)

theorem not_satisfied_of_search {cs : List Clause} (result : search cs = none) (a : Nat → Bool) :
    ¬Satisfied a cs := by
  fun_induction search cs with
  | case1 cs nothing => simp at result
  | case2 cs empty =>
    intro satisfied
    have holds := satisfied [] (mem_of_pick? empty)
    simp [Clause.holds] at holds
  | case3 cs l tail picked rest recursive ih => simp at result
  | case4 cs l tail picked failed ih ih' =>
    have failed' := Option.map_eq_none_iff.mp result
    cases value : l.holds a with
    | true => exact fun satisfied => ih failed ((satisfied_assign value cs).mpr satisfied)
    | false =>
      have opposite : l.negate.holds a = true := by simp [value]
      exact fun satisfied => ih' failed' ((satisfied_assign opposite cs).mpr satisfied)

/-- A variable is true in an answer exactly when its literal is positive. -/
theorem Answers.contains_positive {l : Literal} (answers : Answers cs found) (member : l ∈ found) :
    (found.contains ⟨l.var, true⟩ == l.positive) = true := by
  cases sign : l.positive with
  | true =>
    have same : l = ⟨l.var, true⟩ := by rw [← sign]
    simpa [← same] using member
  | false =>
    have absent : (⟨l.var, true⟩ : Literal) ∉ found := by
      intro other
      have apart : l ≠ ⟨l.var, true⟩ := fun same => by
        rw [same] at sign
        contradiction
      have : Std.Symm fun l m : Literal => l.var ≠ m.var := ⟨fun _ _ h => h.symm⟩
      exact answers.distinct.forall member other apart rfl
    simpa using absent

theorem le_foldl_max_var (ls : List Literal) (n : Nat) :
    n ≤ ls.foldl (fun n l => max n l.var) n ∧
      ∀ l ∈ ls, l.var ≤ ls.foldl (fun n l => max n l.var) n := by
  induction ls generalizing n with
  | nil => simp
  | cons m ls ih =>
    obtain ⟨start, rest⟩ := ih (max n m.var)
    rw [List.foldl_cons]
    exact ⟨by omega, List.forall_mem_cons.mpr ⟨by omega, rest⟩⟩

theorem le_greatestVar {cs : List Clause} {c : Clause} {l : Literal} (member : c ∈ cs)
    (inClause : l ∈ c) : l.var ≤ greatestVar cs :=
  (le_foldl_max_var cs.flatten 0).2 l (List.mem_flatten.mpr ⟨c, member, inClause⟩)

def Numbered (cs : List Clause) : Prop :=
  ∀ c ∈ cs, ∀ l ∈ c, 0 < l.var

end Clause

namespace Solver

/-- A solver that can be relied on: it answers exactly when there are values under which
all clauses hold, and its answer gives such values, one for each variable up to the
greatest. -/
structure Correct (solver : Solver) : Prop where
  answers : ∀ cs, Clause.Numbered cs →
    ((solver cs).isSome = true ↔ ∃ a, Clause.Satisfied a cs)
  values : ∀ cs values, Clause.Numbered cs → solver cs = some values →
    values.length = Clause.greatestVar cs ∧ Clause.Satisfied (value values) cs

theorem value_range_map {cs : List Clause} (found : List Literal) {v : Nat} (positive : 0 < v)
    (bound : v ≤ Clause.greatestVar cs) :
    value ((List.range (Clause.greatestVar cs)).map fun i => found.contains ⟨i + 1, true⟩) v =
      found.contains ⟨v, true⟩ := by
  have index : v - 1 < Clause.greatestVar cs := by omega
  have number : v - 1 + 1 = v := by omega
  simp [value, List.getD_eq_getElem?_getD, index, number]

theorem satisfied_search {cs : List Clause} (numbered : Clause.Numbered cs)
    (result : search cs = some values) : Clause.Satisfied (value values) cs := by
  obtain ⟨found, searched, rfl⟩ := Option.map_eq_some_iff.mp result
  have answers := Clause.answers_of_search searched
  refine answers.holds _ fun l member => ?_
  obtain ⟨c, inClauses, m, inClause, same⟩ := answers.vars l member
  have value := value_range_map found (same ▸ numbered c inClauses m inClause)
    (same ▸ Clause.le_greatestVar inClauses inClause)
  rw [Literal.holds, value]
  exact answers.contains_positive member

theorem search_correct : Correct search where
  answers := by
    intro cs numbered
    constructor
    · intro answered
      obtain ⟨values, result⟩ := Option.isSome_iff_exists.mp answered
      exact ⟨_, satisfied_search numbered result⟩
    · rintro ⟨a, satisfied⟩
      cases result : Clause.search cs with
      | none => exact absurd satisfied (Clause.not_satisfied_of_search result a)
      | some found => simp [search, result]
  values := by
    intro cs values numbered result
    refine ⟨?_, satisfied_search numbered result⟩
    obtain ⟨found, _, rfl⟩ := Option.map_eq_some_iff.mp result
    simp

end Solver

end Turnstile
