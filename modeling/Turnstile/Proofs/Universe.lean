import Mathlib.Data.Finset.Prod
import Turnstile.Proofs.Bound
import Turnstile.Proofs.Places

/-! Whatever a search records is a subformula of what it starts from, the negation of one, or an
implication between two of them. So there are only so many facts, and as every pass but the last
adds one, a bound on passes that is larger than their number is never reached. The number itself
is not claimed to be sharp. -/
namespace Turnstile

namespace Formula

def subformulas : Formula → Finset Formula
  | var name => {var name}
  | not f => insert (not f) f.subformulas
  | and l r => insert (and l r) (l.subformulas ∪ r.subformulas)
  | or l r => insert (or l r) (l.subformulas ∪ r.subformulas)
  | implies l r => insert (implies l r) (l.subformulas ∪ r.subformulas)

theorem self_mem_subformulas (f : Formula) : f ∈ f.subformulas := by
  cases f <;> simp [subformulas]

theorem operand_mem_subformulas {f g : Formula} (operand : g ∈ f.operands) :
    g ∈ f.subformulas := by
  cases f with
  | var name => simp [operands] at operand
  | not f =>
    obtain rfl := List.mem_singleton.mp operand
    simp [subformulas, self_mem_subformulas]
  | and l r | or l r | implies l r =>
    rcases List.mem_pair.mp operand with rfl | rfl <;> simp [subformulas, self_mem_subformulas]

theorem subformulas_subset {f g : Formula} (member : f ∈ g.subformulas) :
    f.subformulas ⊆ g.subformulas := by
  induction g with
  | var name =>
    obtain rfl := Finset.mem_singleton.mp member
    exact Finset.Subset.refl _
  | not g ih =>
    rcases Finset.mem_insert.mp member with rfl | inside
    · exact Finset.Subset.refl _
    · exact (ih inside).trans (Finset.subset_insert _ _)
  | and l r left right | or l r left right | implies l r left right =>
    rcases Finset.mem_insert.mp member with rfl | inside
    · exact Finset.Subset.refl _
    · refine Finset.Subset.trans ?_ (Finset.subset_insert _ _)
      rcases Finset.mem_union.mp inside with inside | inside
      · exact (left inside).trans Finset.subset_union_left
      · exact (right inside).trans Finset.subset_union_right

def subformulasOf (fs : List Formula) : Finset Formula :=
  fs.toFinset.biUnion subformulas

theorem mem_subformulasOf_of_mem {fs : List Formula} {f : Formula} (member : f ∈ fs) :
    f ∈ subformulasOf fs :=
  Finset.mem_biUnion.mpr ⟨f, List.mem_toFinset.mpr member, f.self_mem_subformulas⟩

theorem operand_mem_subformulasOf {fs : List Formula} {f g : Formula} (operand : g ∈ f.operands)
    (member : f ∈ subformulasOf fs) : g ∈ subformulasOf fs := by
  obtain ⟨h, listed, inside⟩ := Finset.mem_biUnion.mp member
  exact Finset.mem_biUnion.mpr
    ⟨h, listed, subformulas_subset inside (operand_mem_subformulas operand)⟩

/-- Some formulas, their negations and the implications between them. -/
def span (s : Finset Formula) : Finset Formula :=
  s ∪ s.image not ∪ (s ×ˢ s).image fun (l, r) => implies l r

theorem mem_span {s : Finset Formula} {f : Formula} : f ∈ span s ↔
    f ∈ s ∨ (∃ g ∈ s, f = not g) ∨ ∃ l ∈ s, ∃ r ∈ s, f = implies l r := by
  simp [span, and_assoc, eq_comm]

theorem card_span_le (s : Finset Formula) :
    (span s).card ≤ s.card * s.card + 2 * s.card := by
  have negations : (s.image not).card ≤ s.card := Finset.card_image_le
  have implications : ((s ×ˢ s).image fun (l, r) => implies l r).card ≤ s.card * s.card :=
    Finset.card_image_le.trans (Finset.card_product s s).le
  have joined := Finset.card_union_le (s ∪ s.image not) ((s ×ˢ s).image fun (l, r) => implies l r)
  have first := Finset.card_union_le s (s.image not)
  rw [span]
  omega

/-- The new negations and implications have subformulas as operands, as all others do. -/
theorem operand_of_mem_span {fs : List Formula} {f g : Formula}
    (member : f ∈ span (subformulasOf fs)) (operand : g ∈ f.operands) : g ∈ subformulasOf fs := by
  rcases mem_span.mp member with part | ⟨h, part, rfl⟩ | ⟨l, left, r, right, rfl⟩
  · exact operand_mem_subformulasOf operand part
  · obtain rfl := List.mem_singleton.mp operand
    exact part
  · rcases List.mem_pair.mp operand with rfl | rfl
    · exact left
    · exact right

end Formula

open Formula (subformulasOf span mem_span mem_subformulasOf_of_mem)

/-- The rules do not lead out of the subformulas, their negations and the implications between
them. Only modus tollens and the hypothetical syllogism yield formulas that are no subformulas. -/
theorem Candidate.mem_span_of_mem_all {goal : Formula} {known : List Fact} {fs : List Formula}
    (goalMember : goal ∈ fs) (inside : ∀ fact ∈ known, fact.formula ∈ span (subformulasOf fs))
    {c : Candidate} (member : c ∈ all goal known) : c.formula ∈ span (subformulasOf fs) := by
  have operand {f : Fact} {g h : Formula} (isKnown : f ∈ known) (shape : f.formula = h)
      (operand : g ∈ h.operands) : g ∈ subformulasOf fs :=
    Formula.operand_of_mem_span (inside f isKnown) (shape ▸ operand)
  have first {g h : Formula} : g ∈ [g, h] := List.mem_cons_self
  have second {g h : Formula} : h ∈ [g, h] := List.mem_cons_of_mem _ List.mem_cons_self
  rw [mem_span]
  cases yields_of_mem_all member with
  | simplifyLeft major shape => exact .inl (operand major shape first)
  | simplifyRight major shape => exact .inl (operand major shape second)
  | modusPonens major _ shape => exact .inl (operand major shape second)
  | modusTollens major _ shape => exact .inr (.inl ⟨_, operand major shape first, rfl⟩)
  | hypotheticalSyllogism major minor shape minorShape =>
    exact .inr (.inr ⟨_, operand major shape first, _, operand minor minorShape second, rfl⟩)
  | disjunctiveSyllogismLeft major _ shape => exact .inl (operand major shape second)
  | disjunctiveSyllogismRight major _ shape => exact .inl (operand major shape first)
  | conjunction => exact .inl (mem_subformulasOf_of_mem goalMember)

namespace Run

section Search

variable (goal : Formula) (n : Nat) (run : Run)

/-- A search ends with the goal, with a pass that adds nothing, or with a fact for each pass
that it may make. -/
theorem search_ends : (run.search goal n).found = true ∨
    (∃ k < n, (run.search goal k).found = false ∧
      (run.search goal k).pass goal = (run.search goal n, false) ∧
      (run.search goal n).facts = (run.search goal k).facts) ∨
    run.facts.length + n ≤ (run.search goal n).facts.length := by
  induction n generalizing run with
  | zero => exact .inr (.inr (Nat.le_refl _))
  | succ n ih =>
    rcases run.search_cases goal with ⟨found, same⟩ | ⟨unfound, nothing, stopped⟩ |
      ⟨_, added, onward⟩
    · rw [same]
      exact .inl found
    · rw [stopped]
      exact .inr (.inl ⟨0, Nat.succ_pos n, unfound, Prod.ext rfl nothing,
        run.facts_pass_of_not_added nothing⟩)
    · have grows := run.length_lt_of_added added
      rw [onward]
      rcases ih (run.pass goal).1 with reached | ⟨k, below, stopped⟩ | many
      · exact .inl reached
      · refine .inr (.inl ⟨k + 1, Nat.succ_lt_succ below, ?_⟩)
        rwa [onward]
      · exact .inr (.inr (by omega))

/-- Every pass but the last adds a fact. -/
theorem passes_add_length_le : (run.search goal n).passes + run.facts.length ≤
    run.passes + (run.search goal n).facts.length + 1 := by
  induction n generalizing run with
  | zero => exact Nat.le_succ _
  | succ n ih =>
    have passes : (run.pass goal).1.passes = run.passes + 1 := rfl
    have later := ih (run.pass goal).1
    rcases run.search_cases goal with ⟨_, same⟩ | ⟨_, _, stopped⟩ | ⟨_, added, onward⟩
    · rw [same]
      exact Nat.le_succ _
    · have kept := (run.facts_prefix_pass goal).length_le
      rw [stopped]
      omega
    · have grows := run.length_lt_of_added added
      rw [onward]
      omega

end Search

end Run

section Chain

variable (premises assumptions : List Formula) (goal : Formula) (maxPasses : Int)

theorem mem_span_of_mem_chain :
    ∀ fact ∈ (chain premises assumptions goal maxPasses).facts,
      fact.formula ∈ span (subformulasOf (premises ++ assumptions ++ [goal])) := by
  have initial : ∀ f ∈ premises ++ assumptions,
      f ∈ span (subformulasOf (premises ++ assumptions ++ [goal])) := fun f member =>
    mem_span.mpr (.inl (mem_subformulasOf_of_mem (List.mem_append_left _ member)))
  refine (Run.Records.chain ?_ ?_ ?_ maxPasses).facts
  · intro known inside c member
    exact Candidate.mem_span_of_mem_all (by simp) inside member
  · exact fun f member => initial f (List.mem_append_left _ member)
  · exact fun f member => initial f (List.mem_append_right _ member)

/-- No two facts are the same formula, as they have different texts. -/
theorem length_chain_le : (chain premises assumptions goal maxPasses).facts.length ≤
    (span (subformulasOf (premises ++ assumptions ++ [goal]))).card := by
  have indexed := Run.Indexed.chain premises assumptions goal maxPasses
  have distinct : ((chain premises assumptions goal maxPasses).facts.map Fact.formula).Nodup :=
    List.Nodup.of_map Formula.canonical (Fact.map_key _ ▸ indexed.distinct)
  calc (chain premises assumptions goal maxPasses).facts.length
      = ((chain premises assumptions goal maxPasses).facts.map Fact.formula).toFinset.card := by
        rw [List.toFinset_card_of_nodup distinct, List.length_map]
    _ ≤ (span (subformulasOf (premises ++ assumptions ++ [goal]))).card := by
        apply Finset.card_le_card
        intro f member
        obtain ⟨fact, recorded, rfl⟩ := List.mem_map.mp (List.mem_toFinset.mp member)
        exact mem_span_of_mem_chain premises assumptions goal maxPasses fact recorded

theorem initial_chain_le : (chain premises assumptions goal maxPasses).initial ≤
    (chain premises assumptions goal maxPasses).facts.length := by
  rw [Run.initial_chain]
  exact (Run.start_prefix_chain premises assumptions goal maxPasses).length_le

theorem passes_chain_le_growth : (chain premises assumptions goal maxPasses).passes ≤
    (chain premises assumptions goal maxPasses).facts.length -
      (chain premises assumptions goal maxPasses).initial + 1 := by
  have grows := initial_chain_le premises assumptions goal maxPasses
  have passes := Run.passes_add_length_le goal (Run.bound maxPasses)
    (Run.start premises assumptions goal)
  rw [Run.passes_start, ← chain, ← Run.initial_chain premises assumptions goal maxPasses] at passes
  omega

/-- A search from nothing records nothing. -/
theorem facts_chain_nil (goal : Formula) (maxPasses : Int) :
    (chain [] [] goal maxPasses).facts = [] := by
  have records : Run.Records goal (fun _ => False) (chain [] [] goal maxPasses) := by
    refine Run.Records.chain ?_ (by simp) (by simp) maxPasses
    intro known none c member
    cases known with
    | nil => contradiction
    | cons fact known => exact (none fact List.mem_cons_self).elim
  exact List.eq_nil_iff_forall_not_mem.mpr records.facts

theorem passes_chain_le_card : (chain premises assumptions goal maxPasses).passes ≤
    (span (subformulasOf (premises ++ assumptions ++ [goal]))).card := by
  have facts := length_chain_le premises assumptions goal maxPasses
  have passes := passes_chain_le_growth premises assumptions goal maxPasses
  have goalMember : goal ∈ span (subformulasOf (premises ++ assumptions ++ [goal])) :=
    mem_span.mpr (.inl (mem_subformulasOf_of_mem (by simp)))
  have positive := Finset.card_pos.mpr ⟨goal, goalMember⟩
  by_cases nothing : premises ++ assumptions = []
  · obtain ⟨rfl, rfl⟩ := List.append_eq_nil_iff.mp nothing
    rw [facts_chain_nil, List.length_nil] at passes
    omega
  · obtain ⟨f, member⟩ := List.exists_mem_of_ne_nil _ nothing
    obtain ⟨fact, recorded, _⟩ := Run.exists_key_start goal member
    have some := List.length_pos_of_mem recorded
    rw [← Run.initial_chain premises assumptions goal maxPasses] at some
    omega

end Chain

/-- All facts of a search are subformulas of its premises, assumptions and goal, negations of
such, or implications between such, so that their number is bounded. There is at most one pass
more than there are facts added, and a bound on passes above the number of possible facts is not
reached: the search ends with the goal or with a pass that adds nothing. -/
theorem chain_stays_among_subformulas (premises assumptions : List Formula) (goal : Formula)
    (maxPasses : Int) :
    let parts := subformulasOf (premises ++ assumptions ++ [goal])
    let run := chain premises assumptions goal maxPasses
    let bound := if maxPasses ≤ 0 then 5000 else maxPasses.toNat
    let most := parts.card * parts.card + 2 * parts.card
    (∀ fact ∈ run.facts, fact.formula ∈ parts ∨ (∃ f ∈ parts, fact.formula = .not f) ∨
      ∃ l ∈ parts, ∃ r ∈ parts, fact.formula = .implies l r) ∧
    run.facts.length ≤ most ∧
    run.initial ≤ run.facts.length ∧ run.passes ≤ run.facts.length - run.initial + 1 ∧
    (most < bound → run.passes < bound ∧ (run.found = true ∨
      ∃ k < bound, let before := (Run.start premises assumptions goal).search goal k
        before.found = false ∧ before.pass goal = (run, false) ∧ run.facts = before.facts)) := by
  intro parts run bound most
  have size : (span parts).card ≤ most := Formula.card_span_le parts
  have facts : run.facts.length ≤ most :=
    (length_chain_le premises assumptions goal maxPasses).trans size
  refine ⟨?_, facts, initial_chain_le premises assumptions goal maxPasses,
    passes_chain_le_growth premises assumptions goal maxPasses, fun above => ?_⟩
  · intro fact recorded
    exact mem_span.mp (mem_span_of_mem_chain premises assumptions goal maxPasses fact recorded)
  · have passes : run.passes ≤ most :=
      (passes_chain_le_card premises assumptions goal maxPasses).trans size
    refine ⟨by omega, ?_⟩
    rcases Run.search_ends goal bound (Run.start premises assumptions goal) with
      found | stopped | many
    · exact .inl found
    · exact .inr stopped
    · have grown : _ + bound ≤ run.facts.length := many
      omega

/-- The two implications of a circle give rise to two more and then to nothing else. -/
theorem chain_stays_among_subformulas_of_circle :
    let premises : List Formula := [.implies (.var "P") (.var "Q"), .implies (.var "Q") (.var "P")]
    (subformulasOf (premises ++ [] ++ [.var "Z"])).card = 5 ∧
    (chain premises [] (.var "Z") 0).facts.length = 4 ∧
    (chain premises [] (.var "Z") 36).passes < 36 := by
  intro premises
  have card : (subformulasOf (premises ++ [] ++ [.var "Z"])).card = 5 := by decide +kernel
  have stays := chain_stays_among_subformulas premises [] (.var "Z") 36
  exact ⟨card, by decide +kernel, (stays.2.2.2.2 (by rw [card]; decide)).1⟩

end Turnstile
