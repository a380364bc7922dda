import Turnstile.Proofs.Places
import Turnstile.Proofs.Table

/-! The variables of some formulas come in the order of their first places. They are all that a
truth value depends on, and strict evaluation asks for each of them, in that order, before it
evaluates anything. -/
namespace Turnstile

/-- Of two elements of a list without its repetitions, the first one stands in the list before
the other one does. -/
theorem pairwise_eraseDups [BEq α] [LawfulBEq α] : (xs : List α) → xs.eraseDups.Pairwise
    fun x y => ∃ before after, xs = before ++ x :: after ∧ y ∉ before ∧ y ≠ x
  | [] => by simp
  | z :: xs => by
    rw [List.eraseDups_cons, List.pairwise_cons]
    have other {y : α} (member : y ∈ xs.filter fun x => !x == z) : y ≠ z := by
      simpa using (List.mem_filter.mp member).2
    constructor
    · intro y member
      exact ⟨[], xs, rfl, by simp, other (List.mem_eraseDups.mp member)⟩
    · refine List.Pairwise.imp_of_mem ?_ (pairwise_eraseDups (xs.filter fun x => !x == z))
      rintro x y - member ⟨before, after, split, absent, apart⟩
      obtain ⟨first, rest, rfl, rfl, found⟩ := List.filter_eq_append_iff.mp split
      obtain ⟨skipped, after, rfl, dropped, _⟩ := List.filter_eq_cons_iff.mp found
      refine ⟨z :: (first ++ skipped), after, by simp, ?_, apart⟩
      have fresh : y ≠ z := other (List.mem_eraseDups.mp member)
      simp only [List.mem_cons, List.mem_append, not_or]
      refine ⟨fresh, fun early => absent ?_, fun late => dropped y late ?_⟩
      · exact List.mem_filter.mpr ⟨early, by simpa using fresh⟩
      · simpa using fresh
termination_by xs => xs.length
decreasing_by exact Nat.lt_succ_of_le (List.length_filter_le _ _)

namespace Formula

def name? : Formula → Option Text
  | var name => some name
  | _ => none

theorem name?_eq_some_iff {f : Formula} {x : Text} : f.name? = some x ↔ f = var x := by
  cases f <;> simp [name?]

theorem leaves_eq (f : Formula) :
    f.leaves = f.name?.toList ++ f.operands.flatMap leaves := by
  cases f <;> simp [leaves, name?, operands]

theorem flatMap_leaves {fs : List Formula}
    (each : ∀ f ∈ fs, f.leaves = (f.nodes.map Prod.snd).filterMap name?) :
    fs.flatMap leaves = ((nodesOf fs).map Prod.snd).filterMap name? := by
  have nodes : (nodesOf fs).map Prod.snd = fs.flatMap fun f => f.nodes.map Prod.snd :=
    map_nodesOf fun i f _ => rfl
  rw [nodes, List.filterMap_flatMap]
  exact List.flatMap_congr each

/-- The leaves are the nodes that are variables. -/
theorem leaves_eq_filterMap (f : Formula) :
    f.leaves = (f.nodes.map Prod.snd).filterMap name? := by
  induction f using operands_induction with
  | step f ih =>
    rw [leaves_eq, flatMap_leaves ih, nodes_eq, List.map_cons, List.filterMap_cons]
    cases f.name? <;> rfl

/-- A variable stands at a place in some formulas. The first number of the place is that of the
formula that it stands in. -/
def StandsAt (fs : List Formula) (name : Text) (place : List Nat) : Prop :=
  ∃ i rest f, place = i :: rest ∧ fs[i]? = some f ∧ f.at? rest = some (var name)

theorem standsAt_iff {fs : List Formula} {name : Text} {place : List Nat} :
    StandsAt fs name place ↔ (place, var name) ∈ nodesOf fs := by
  simp only [StandsAt, mem_nodesOf, mem_nodes]

theorem mem_vars_iff {fs : List Formula} {x : Text} :
    x ∈ vars fs ↔ ∃ place, StandsAt fs x place := by
  rw [vars, List.mem_eraseDups, flatMap_leaves fun f _ => f.leaves_eq_filterMap]
  simp [name?_eq_some_iff, standsAt_iff]

/-- The variables come in the order of their first places. -/
theorem pairwise_vars (fs : List Formula) : (vars fs).Pairwise fun x y =>
    ∃ place, StandsAt fs x place ∧ ∀ other, StandsAt fs y other → Precedes place other := by
  apply (pairwise_eraseDups _).imp
  rintro x y ⟨before, after, split, absent, apart⟩
  rw [flatMap_leaves fun f _ => f.leaves_eq_filterMap, List.filterMap_map] at split
  obtain ⟨early, rest, nodes, rfl, found⟩ := List.filterMap_eq_append_iff.mp split
  obtain ⟨skipped, node, late, rfl, nameless, named, _⟩ := List.filterMap_eq_cons_iff.mp found
  obtain ⟨place, rfl⟩ : ∃ place, node = (place, var x) :=
    ⟨node.1, Prod.ext rfl (name?_eq_some_iff.mp named)⟩
  refine ⟨place, standsAt_iff.mpr (by simp [nodes]), fun other stands => ?_⟩
  have ordered := pairwise_nodesOf fun f (_ : f ∈ fs) => f.pairwise_nodes
  have member := standsAt_iff.mp stands
  rw [nodes, List.mem_append, List.mem_append, List.mem_cons] at member
  rcases member with inside | inside | same | inside
  · exact absent.elim (List.mem_filterMap.mpr ⟨_, inside, rfl⟩)
  · exact absurd (nameless _ inside) (by simp [name?])
  · simp [apart] at same
  · rw [nodes, List.pairwise_append, List.pairwise_append, List.pairwise_cons] at ordered
    exact ordered.2.1.2.1.1 _ inside

/-- Strict evaluation fails at the first variable without a value. -/
theorem evalStrict_eq_error_iff {f : Formula} {m : Model} {x : Text} :
    f.evalStrict m = .error ⟨x⟩ ↔ ∃ before after, vars [f] = before ++ x :: after ∧
      (∀ y ∈ before, (m.get? y).isSome = true) ∧ m.get? x = none := by
  have first : f.evalStrict m = .error ⟨x⟩ ↔
      (vars [f]).find? (fun name => (m.get? name).isNone) = some x := by
    rw [evalStrict]
    split <;> next found => rw [found]; simp
  rw [first, List.find?_eq_some_iff_append]
  simp only [Option.isNone_iff_eq_none, Bool.not_eq_true', Option.isNone_eq_false_iff]
  constructor
  · rintro ⟨unbound, before, after, names, bound⟩
    exact ⟨before, after, names, bound, unbound⟩
  · rintro ⟨before, after, names, bound, unbound⟩
    exact ⟨unbound, before, after, names, bound⟩

theorem evalStrict_eq_ok_iff {f : Formula} {m : Model} {b : Bool} :
    f.evalStrict m = .ok b ↔ (∀ x ∈ vars [f], (m.get? x).isSome = true) ∧ f.eval m.value = b := by
  have bound : (∀ x ∈ vars [f], (m.get? x).isSome = true) ↔
      (vars [f]).find? (fun name => (m.get? name).isNone) = none := by
    simp [Option.isSome_iff_ne_none]
  rw [bound, evalStrict]
  split <;> next found => rw [found]; simp

/-- The variables of some formulas are the names at their leaves, each once, in the order of their
first places. Models with the same values of the variables of a formula, where a name without a
value counts as false, give it the same truth value. Strict evaluation gives it that value if all
its variables have values. Otherwise it fails at the first variable without one, whether or not
the truth value depends on it. -/
theorem vars_decide_evaluation :
    (∀ fs : List Formula, (vars fs).Nodup ∧
      (∀ x, x ∈ vars fs ↔ ∃ place, StandsAt fs x place) ∧
      (vars fs).Pairwise fun x y =>
        ∃ place, StandsAt fs x place ∧ ∀ other, StandsAt fs y other → Precedes place other) ∧
    ∀ f : Formula,
      (∀ m m' : Model, (∀ x ∈ vars [f], m.value x = m'.value x) →
        f.eval m.value = f.eval m'.value) ∧
      ∀ m : Model,
        ((∃ b, f.evalStrict m = .ok b) ↔ ∀ x ∈ vars [f], (m.get? x).isSome = true) ∧
        (∀ b, f.evalStrict m = .ok b → b = f.eval m.value) ∧
        (¬(∀ x ∈ vars [f], (m.get? x).isSome = true) → ∃ before x after,
          vars [f] = before ++ x :: after ∧ (∀ y ∈ before, (m.get? y).isSome = true) ∧
          m.get? x = none ∧ f.evalStrict m = .error ⟨x⟩) := by
  refine ⟨fun fs => ⟨nodup_vars fs, fun x => mem_vars_iff, pairwise_vars fs⟩, fun f => ⟨?_, ?_⟩⟩
  · intro m m' agree
    exact eval_congr fun x leaf => agree x (mem_vars.mpr ⟨f, List.mem_singleton_self f, leaf⟩)
  · intro m
    simp only [evalStrict_eq_ok_iff]
    refine ⟨by simp, fun b ⟨_, value⟩ => value.symm, fun unbound => ?_⟩
    cases result : f.evalStrict m with
    | ok b => exact absurd (evalStrict_eq_ok_iff.mp result).1 unbound
    | error e =>
      obtain ⟨before, after, names, bound, missing⟩ := evalStrict_eq_error_iff.mp result
      exact ⟨before, e.name, after, names, bound, missing, rfl⟩

/-- If `P` is true, then so is `P | Q & R`, but strict evaluation asks for `Q` all the same. -/
theorem vars_decide_evaluation_past_short_circuit :
    let f := or (var "P") (and (var "Q") (var "R"))
    let m := Model.ofList [("P", true), ("R", true)]
    (∀ v : Text → Bool, v "P" = true → f.eval v = true) ∧
    ¬(∀ x ∈ vars [f], (m.get? x).isSome = true) ∧
    f.evalStrict m = .error ⟨"Q"⟩ ∧
    ∃ before x after,
      vars [f] = before ++ x :: after ∧ (∀ y ∈ before, (m.get? y).isSome = true) ∧
      m.get? x = none ∧ f.evalStrict m = .error ⟨x⟩ := by
  intro f m
  have unbound : ¬(∀ x ∈ vars [f], (m.get? x).isSome = true) := fun bound =>
    absurd (bound "Q" (by decide)) (by decide)
  refine ⟨fun v holds => by simp [f, eval, holds], unbound, by decide, ?_⟩
  exact ((vars_decide_evaluation.2 f).2 m).2.2 unbound

end Formula

end Turnstile
