import Turnstile.Proofs.Argument

/-! A subformula stands at a place: the way to it from the whole formula, given by the numbers
of the operands on that way, counted from 0. Lexicographic order of places is the order in which
a formula is read, an operator before its operands. -/
namespace Turnstile

namespace Formula

def operands : Formula → List Formula
  | var _ => []
  | not f => [f]
  | and l r | or l r | implies l r => [l, r]

/-- What holds of a formula if it holds of its operands holds of all formulas. -/
theorem operands_induction {motive : Formula → Prop}
    (step : ∀ f, (∀ g ∈ f.operands, motive g) → motive f) (f : Formula) : motive f := by
  induction f with
  | var name => exact step _ (by simp [operands])
  | not f ih => exact step _ (by simpa [operands] using ih)
  | and l r ihl ihr | or l r ihl ihr | implies l r ihl ihr =>
    exact step _ (by simpa [operands] using ⟨ihl, ihr⟩)

theorem Named.operand {f g : Formula} (named : f.Named) (operand : g ∈ f.operands) : g.Named := by
  cases f with
  | var name => simp [operands] at operand
  | not f => simp_all [operands]
  | and l r | or l r | implies l r =>
    rcases List.mem_pair.mp operand with rfl | rfl <;> simp_all

def at? : Formula → List Nat → Option Formula
  | f, [] => some f
  | f, i :: place => f.operands[i]?.bind fun g => g.at? place

def Precedes : List Nat → List Nat → Prop :=
  List.Lex (· < ·)

def nodes : Formula → List (List Nat × Formula)
  | f@(var _) => [([], f)]
  | f@(not g) => ([], f) :: g.nodes.map fun x => (0 :: x.1, x.2)
  | f@(and l r) | f@(or l r) | f@(implies l r) =>
    ([], f) :: ((l.nodes.map fun x => (0 :: x.1, x.2)) ++ r.nodes.map fun x => (1 :: x.1, x.2))

/-- The subformulas of some formulas with their places, which start with the number of the
formula that they are in. -/
def nodesOf (fs : List Formula) : List (List Nat × Formula) :=
  fs.zipIdx.flatMap fun (f, i) => f.nodes.map fun x => (i :: x.1, x.2)

theorem nodes_eq (f : Formula) : f.nodes = ([], f) :: nodesOf f.operands := by
  cases f <;> simp [nodes, nodesOf, operands]

theorem mem_nodesOf {fs : List Formula} {place : List Nat} {g : Formula} :
    (place, g) ∈ nodesOf fs ↔
      ∃ i rest f, place = i :: rest ∧ fs[i]? = some f ∧ (rest, g) ∈ f.nodes := by
  simp only [nodesOf, List.mem_flatMap, List.mem_map, Prod.exists, List.mem_zipIdx_iff_getElem?,
    Prod.mk.injEq]
  constructor
  · rintro ⟨f, i, here, rest, _, inside, rfl, rfl⟩
    exact ⟨i, rest, f, rfl, here, inside⟩
  · rintro ⟨i, rest, f, rfl, here, inside⟩
    exact ⟨f, i, here, rest, g, inside, rfl, rfl⟩

theorem mem_nodes {f : Formula} {place : List Nat} {g : Formula} :
    (place, g) ∈ f.nodes ↔ f.at? place = some g := by
  induction f using operands_induction generalizing place with
  | step f ih =>
    rw [nodes_eq, List.mem_cons, mem_nodesOf]
    cases place with
    | nil => simp [at?, eq_comm]
    | cons i rest =>
      simp only [at?, Option.bind_eq_some_iff]
      constructor
      · rintro (root | ⟨i, rest, h, same, here, inside⟩)
        · simp at root
        · obtain ⟨rfl, rfl⟩ := List.cons.inj same
          exact ⟨h, here, (ih h (List.mem_of_getElem? here)).mp inside⟩
      · rintro ⟨h, here, inside⟩
        exact .inr ⟨i, rest, h, rfl, here, (ih h (List.mem_of_getElem? here)).mpr inside⟩

/-- What can be read off the nodes of each of some formulas can be read off all their nodes. -/
theorem map_nodesOf {fs : List Formula} {read : List Nat × Formula → α} {all : Formula → List α}
    (each : ∀ i, ∀ f ∈ fs, (f.nodes.map fun x => read (i :: x.1, x.2)) = all f) :
    (nodesOf fs).map read = fs.flatMap all := by
  have formulas : fs = fs.zipIdx.map Prod.fst := by simp
  conv_rhs => rw [formulas, List.flatMap_map]
  rw [nodesOf, List.map_flatMap]
  apply List.flatMap_congr
  rintro ⟨f, i⟩ member
  rw [List.map_map]
  exact each i f (List.fst_mem_of_mem_zipIdx member)

theorem pairwise_nodesOf {fs : List Formula}
    (each : ∀ f ∈ fs, f.nodes.Pairwise fun x y => Precedes x.1 y.1) :
    (nodesOf fs).Pairwise fun x y => Precedes x.1 y.1 := by
  rw [nodesOf, List.pairwise_flatMap]
  constructor
  · rintro ⟨f, i⟩ member
    rw [List.pairwise_map]
    exact (each f (List.fst_mem_of_mem_zipIdx member)).imp .cons
  · apply (pairwise_zipIdx fs).imp
    rintro ⟨f, i⟩ ⟨g, j⟩ less x first y second
    obtain ⟨_, _, rfl⟩ := List.mem_map.mp first
    obtain ⟨_, _, rfl⟩ := List.mem_map.mp second
    exact .rel less

theorem pairwise_nodes (f : Formula) : f.nodes.Pairwise fun x y => Precedes x.1 y.1 := by
  induction f using operands_induction with
  | step f ih =>
    rw [nodes_eq, List.pairwise_cons]
    refine ⟨fun ⟨place, g⟩ member => ?_, pairwise_nodesOf ih⟩
    obtain ⟨i, rest, _, rfl, _⟩ := mem_nodesOf.mp member
    exact .nil

end Formula

end Turnstile
