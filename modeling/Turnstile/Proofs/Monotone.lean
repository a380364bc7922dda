import Mathlib.Logic.Function.Iterate
import Turnstile.Proofs.Rounds

/-! Two searches for one goal go side by side, pass by pass. As long as the one with more
premises has not found the goal, it has recorded all that the other has, in whatever order and
for whatever reasons. The goal may be any formula, but premises and assumptions are told apart
by their texts, so their names have to be such as can be written. -/
namespace Turnstile

namespace Candidate

section Formulas

variable {f f' g g' : Fact}

theorem key_eq_of_formula (same : f'.formula = f.formula) : f'.key = f.key := by
  rw [f'.key_eq, f.key_eq, same]

theorem formulas_simplify (same : f'.formula = f.formula) :
    (simplify f').map formula = (simplify f).map formula := by
  unfold simplify
  rw [same]
  split <;> rfl

theorem formulas_doubleGoal (goal : Formula) (same : f'.formula = f.formula) :
    (doubleGoal goal f').map formula = (doubleGoal goal f).map formula := by
  unfold doubleGoal
  rw [key_eq_of_formula same]
  split
  · split <;> rfl
  · rfl

theorem formulas_combine (major : f'.formula = f.formula) (minor : g'.formula = g.formula) :
    (combine f' g').map formula = (combine f g).map formula := by
  unfold combine
  rw [major, minor, key_eq_of_formula minor]
  cases f.formula with
  | implies l r =>
    cases g.formula <;>
      simp only [List.map_append, apply_ite (List.map formula), List.map_cons, List.map_nil]
  | or l r =>
    simp only [List.map_append, apply_ite (List.map formula), List.map_cons, List.map_nil]
  | var | not | and => rfl

theorem formulas_joinGoal (goal : Formula) (first : f'.formula = f.formula)
    (second : g'.formula = g.formula) :
    (joinGoal goal f' g').map formula = (joinGoal goal f g).map formula := by
  unfold joinGoal
  rw [key_eq_of_formula first, key_eq_of_formula second]
  split
  · simp only [apply_ite (List.map formula), List.map_cons, List.map_nil]
  · rfl

end Formulas

theorem exists_formula_of_map_eq {cs ds : List Candidate} {c : Candidate}
    (same : ds.map formula = cs.map formula) (member : c ∈ cs) :
    ∃ d ∈ ds, d.formula = c.formula :=
  List.mem_map.mp (same ▸ List.mem_map_of_mem member)

/-- Facts with more formulas have more candidates, whatever their numbers. -/
theorem exists_mem_all_of_covered {goal : Formula} {known more : List Fact}
    (covered : ∀ f ∈ known, ∃ f' ∈ more, f'.formula = f.formula) {c : Candidate}
    (member : c ∈ all goal known) : ∃ d ∈ all goal more, d.formula = c.formula := by
  obtain ⟨f, inKnown, member⟩ := List.mem_flatMap.mp member
  obtain ⟨f', inMore, sameFirst⟩ := covered f inKnown
  rcases List.mem_append.mp member with alone | paired
  · have same : (simplify f' ++ doubleGoal goal f').map formula =
        (simplify f ++ doubleGoal goal f).map formula := by
      rw [List.map_append, List.map_append, formulas_simplify sameFirst,
        formulas_doubleGoal goal sameFirst]
    obtain ⟨d, inAlone, equal⟩ := exists_formula_of_map_eq same alone
    exact ⟨d, mem_all_of_one inMore inAlone, equal⟩
  · obtain ⟨g, other, paired⟩ := List.mem_flatMap.mp paired
    obtain ⟨inKnown, apart⟩ := List.mem_filter.mp other
    obtain ⟨g', inMore', sameSecond⟩ := covered g inKnown
    have same : (combine f' g' ++ joinGoal goal f' g').map formula =
        (combine f g ++ joinGoal goal f g).map formula := by
      rw [List.map_append, List.map_append, formulas_combine sameFirst sameSecond,
        formulas_joinGoal goal sameFirst sameSecond]
    obtain ⟨d, inPaired, equal⟩ := exists_formula_of_map_eq same paired
    refine ⟨d, mem_all_of_two inMore inMore' ?_ inPaired, equal⟩
    rw [key_eq_of_formula sameFirst, key_eq_of_formula sameSecond]
    simpa using apart

/-- Only the goal may have names that cannot be written. -/
theorem named_or_goal_of_mem_all {goal : Formula} {facts : List Fact}
    (named : ∀ fact ∈ facts, fact.formula.Named) {c : Candidate} (member : c ∈ all goal facts) :
    c.formula.Named ∨ c.formula = goal := by
  by_cases isGoal : c.formula = goal
  · exact .inr isGoal
  · obtain ⟨cited, subset, _, infers⟩ :=
      (yields_of_mem_all member).justified named (absurd · isGoal)
    refine .inl (infers.named fun f member => ?_)
    obtain ⟨fact, isCited, rfl⟩ := List.mem_map.mp member
    exact named fact (subset isCited)

end Candidate

namespace Run

def advance (goal : Formula) (run : Run) : Run :=
  if run.found then run else (run.pass goal).1

theorem advance_of_found {goal : Formula} {run : Run} (found : run.found = true) :
    run.advance goal = run :=
  if_pos found

theorem advance_of_unfound {goal : Formula} {run : Run} (unfound : run.found = false) :
    run.advance goal = (run.pass goal).1 := by
  rw [advance, unfound]
  rfl

theorem passes_le_advance (goal : Formula) (run : Run) :
    run.passes ≤ (run.advance goal).passes := by
  unfold advance
  split
  · exact le_rfl
  · exact Nat.le_succ _

theorem iterate_advance_of_found {goal : Formula} {run : Run} (found : run.found = true)
    (n : Nat) :
    (advance goal)^[n] run = run :=
  Function.iterate_fixed (advance_of_found found) n

theorem extend_of_known {run : Run} {cs : List Candidate}
    (known : ∀ c ∈ cs, ∃ fact ∈ run.facts, fact.key = c.formula.canonical) :
    run.extend cs = (run, false) := by
  induction cs with
  | nil => rfl
  | cons c cs ih =>
    obtain ⟨first, known⟩ := List.forall_mem_cons.mp known
    rw [extend_cons_of_known first, ih known]

structure Stuck (goal : Formula) (run : Run) : Prop where
  unfound : run.found = false
  known : ∀ c ∈ Candidate.all goal run.facts, ∃ fact ∈ run.facts, fact.key = c.formula.canonical

theorem Stuck.advance {goal : Formula} {run : Run} (stuck : Stuck goal run) :
    Stuck goal (run.advance goal) := by
  rw [advance_of_unfound stuck.unfound, pass, extend_of_known stuck.known]
  exact ⟨stuck.unfound, stuck.known⟩

theorem Stuck.iterate {goal : Formula} {run : Run} (stuck : Stuck goal run) (n : Nat) :
    Stuck goal ((Run.advance goal)^[n] run) := by
  induction n generalizing run with
  | zero => exact stuck
  | succ n ih => exact ih stuck.advance

theorem stuck_of_not_added {goal : Formula} {run : Run}
    (nothing : (run.pass goal).2 = false)
    (unfound : (run.pass goal).1.found = false) : Stuck goal (run.pass goal).1 := by
  have same := run.facts_pass_of_not_added nothing
  refine ⟨unfound, ?_⟩
  rw [same]
  intro c member
  have recorded := exists_key_extend run member unfound
  exact same ▸ recorded

/-- A search that ends early because a pass adds nothing would not find its goal in any further
pass either. -/
theorem search_eq_iterate {goal : Formula} {n : Nat} {run : Run}
    (found : (run.search goal n).found = true ∨ ((advance goal)^[n] run).found = true) :
    run.search goal n = (advance goal)^[n] run := by
  induction n generalizing run with
  | zero => rfl
  | succ n ih =>
    rcases run.search_cases goal with ⟨atStart, same⟩ | ⟨unfound, nothing, stopped⟩ |
      ⟨unfound, _, onward⟩
    · rw [same, iterate_advance_of_found atStart]
    · rw [stopped, Function.iterate_succ_apply, advance_of_unfound unfound] at found ⊢
      by_cases afterPass : (run.pass goal).1.found = true
      · rw [iterate_advance_of_found afterPass]
      · have stuck := stuck_of_not_added nothing (Bool.eq_false_iff.mpr afterPass)
        rcases found with found | found
        · contradiction
        · rw [(stuck.iterate n).unfound] at found
          contradiction
    · rw [onward, Function.iterate_succ_apply, advance_of_unfound unfound] at found ⊢
      exact ih found

/-- A search for `goal` whose facts, but for the goal itself, have names that can be written. -/
def Legible (goal : Formula) (run : Run) : Prop :=
  Records goal (fun f => f.Named ∨ f = goal) run

namespace Legible

variable {goal : Formula} {run : Run}

theorem named (legible : Legible goal run) (unfound : run.found = false) :
    ∀ fact ∈ run.facts, fact.formula.Named := by
  intro fact member
  rcases legible.facts fact member with named | isGoal
  · exact named
  · have found := legible.found.mpr ⟨fact, member, by rw [fact.key_eq, isGoal]⟩
    rw [unfound] at found
    contradiction

theorem pass (legible : Legible goal run) (unfound : run.found = false) :
    Legible goal (run.pass goal).1 := by
  have extended : Legible goal (run.extend (Candidate.all goal run.facts)).1 :=
    Records.extend legible fun c member =>
      Candidate.named_or_goal_of_mem_all (legible.named unfound) member
  exact ⟨extended.goal, extended.found, extended.facts⟩

theorem advance (legible : Legible goal run) : Legible goal (run.advance goal) := by
  cases found : run.found with
  | true => rwa [advance_of_found found]
  | false =>
    rw [advance_of_unfound found]
    exact legible.pass found

end Legible

/-- The other search has found the goal, or has recorded all that this one has, in no more
passes. -/
structure Behind (goal : Formula) (run other : Run) : Prop where
  legible : Legible goal run
  otherLegible : Legible goal other
  passes : other.passes ≤ run.passes
  covered : other.found = false → run.recorded ⊆ other.recorded

namespace Behind

variable {goal : Formula} {run other : Run}

theorem found (behind : Behind goal run other) (found : run.found = true) : other.found = true := by
  by_contra unfound
  obtain ⟨fact, member, key⟩ := behind.legible.found.mp found
  obtain ⟨fact', recorded, same⟩ :=
    behind.covered (Bool.eq_false_iff.mpr unfound) ⟨fact, member, rfl⟩
  exact unfound (behind.otherLegible.found.mpr
    ⟨fact', recorded, (Candidate.key_eq_of_formula same).trans key⟩)

/-- A pass of the first search records nothing that a pass of the other does not. -/
theorem recorded_pass (behind : Behind goal run other) (otherUnfound : other.found = false)
    (passUnfound : (other.pass goal).1.found = false) :
    (run.pass goal).1.recorded ⊆ (other.pass goal).1.recorded := by
  have covered := behind.covered otherUnfound
  have legible := behind.otherLegible.pass otherUnfound
  have records : Records goal
      (fun f => f ∈ run.recorded ∨ ∃ c ∈ Candidate.all goal run.facts, c.formula = f)
      (run.extend (Candidate.all goal run.facts)).1 :=
    Records.extend ⟨behind.legible.goal, behind.legible.found, fun fact member =>
      .inl ⟨fact, member, rfl⟩⟩ fun c member => .inr ⟨c, member, rfl⟩
  rintro f ⟨fact, member, rfl⟩
  rcases records.facts fact member with old | ⟨c, candidate, same⟩
  · exact other.recorded_subset_pass goal (covered old)
  · have coveredFacts : ∀ f ∈ run.facts, ∃ f' ∈ other.facts, f'.formula = f.formula :=
      fun f known => covered ⟨f, known, rfl⟩
    obtain ⟨d, otherCandidate, equal⟩ :=
      Candidate.exists_mem_all_of_covered coveredFacts candidate
    have key := exists_key_extend other otherCandidate passUnfound
    rw [← same, ← equal]
    rcases Candidate.named_or_goal_of_mem_all (behind.otherLegible.named otherUnfound)
      otherCandidate with named | isGoal
    · exact mem_recorded_of_key (legible.named passUnfound) named key
    · rw [isGoal] at key
      have found := legible.found.mpr key
      rw [passUnfound] at found
      contradiction

theorem advance (behind : Behind goal run other) :
    Behind goal (run.advance goal) (other.advance goal) := by
  have legible := behind.legible.advance
  have otherLegible := behind.otherLegible.advance
  cases otherFound : other.found with
  | true =>
    rw [advance_of_found otherFound] at otherLegible ⊢
    refine ⟨legible, otherLegible, behind.passes.trans (passes_le_advance goal run), ?_⟩
    rw [otherFound]
    exact nofun
  | false =>
    have unfound : run.found = false := by
      by_contra found
      rw [behind.found (by simpa using found)] at otherFound
      contradiction
    rw [advance_of_unfound otherFound] at otherLegible ⊢
    rw [advance_of_unfound unfound] at legible ⊢
    exact ⟨legible, otherLegible, Nat.succ_le_succ behind.passes, behind.recorded_pass otherFound⟩

theorem iterate (behind : Behind goal run other) (n : Nat) :
    Behind goal ((Run.advance goal)^[n] run) ((Run.advance goal)^[n] other) := by
  induction n generalizing run other with
  | zero => exact behind
  | succ n ih => exact ih behind.advance

theorem search (behind : Behind goal run other) {n : Nat}
    (found : (run.search goal n).found = true) :
    (other.search goal n).found = true ∧
      (other.search goal n).passes ≤ (run.search goal n).passes := by
  have after := behind.iterate n
  rw [← search_eq_iterate (.inl found)] at after
  have otherFound := after.found found
  rw [← search_eq_iterate (.inr otherFound)] at after otherFound
  exact ⟨otherFound, after.passes⟩

theorem start {ps qs assumptions : List Formula} (named : ∀ f ∈ qs ++ assumptions, f.Named)
    (subset : ps ⊆ qs) :
    Behind goal (Run.start ps assumptions goal) (Run.start qs assumptions goal) := by
  have weaker : ps ++ assumptions ⊆ qs ++ assumptions :=
    List.append_subset.mpr
      ⟨List.subset_append_of_subset_left _ subset, List.subset_append_right ..⟩
  have fewer : AtRound goal (ps ++ assumptions) (Run.start ps assumptions goal) :=
    .start fun f member => named f (weaker member)
  have more : AtRound goal (qs ++ assumptions) (Run.start qs assumptions goal) := .start named
  refine ⟨?_, ?_, ?_, ?_⟩
  · exact fewer.records.mono fun f known => .inl known.1
  · exact more.records.mono fun f known => .inl known.1
  · rw [passes_start, passes_start]
  · intro unfound f recorded
    have known := fewer.recorded_subset recorded
    rw [passes_start] at known
    apply more.complete unfound
    rw [passes_start]
    exact weaker known

end Behind

end Run

section Subset

variable {ps qs : List Formula} (named : ∀ f ∈ qs, f.Named) (subset : ps ⊆ qs)
variable {goal : Formula} {maxPasses : Int}

include named subset

theorem found_chain_of_subset {assumptions : List Formula}
    (assumptionsNamed : ∀ f ∈ assumptions, f.Named)
    (found : (chain ps assumptions goal maxPasses).found = true) :
    (chain qs assumptions goal maxPasses).found = true ∧
      (chain qs assumptions goal maxPasses).passes ≤ (chain ps assumptions goal maxPasses).passes :=
  (Run.Behind.start (List.forall_mem_append.mpr ⟨named, assumptionsNamed⟩) subset).search found

theorem direct_of_subset (direct : (prove ps goal maxPasses).method = .direct) :
    (prove qs goal maxPasses).method = .direct := by
  rw [method_prove_eq_direct_iff] at direct ⊢
  exact (found_chain_of_subset named subset (by simp) direct).1

theorem derived_of_subset (antecedentNamed : ∀ l r, goal = .implies l r → l.Named)
    (derived : (prove ps goal maxPasses).derived = true) :
    (prove qs goal maxPasses).derived = true := by
  rw [derived_prove_iff] at derived ⊢
  rcases derived with direct | ⟨l, r, implication, found⟩
  · exact .inl (found_chain_of_subset named subset (by simp) direct).1
  · have lNamed := antecedentNamed l r implication
    exact .inr ⟨l, r, implication,
      (found_chain_of_subset named subset (by simpa using lNamed) found).1⟩

end Subset

section SameSet

variable {ps qs : List Formula} (named : ∀ f ∈ qs, f.Named) (forth : ps ⊆ qs) (back : qs ⊆ ps)
variable {goal : Formula} {maxPasses : Int}

include named forth back

theorem found_chain_congr {assumptions : List Formula}
    (assumptionsNamed : ∀ f ∈ assumptions, f.Named) :
    (chain qs assumptions goal maxPasses).found = (chain ps assumptions goal maxPasses).found ∧
      ((chain ps assumptions goal maxPasses).found = true →
        (chain qs assumptions goal maxPasses).passes =
          (chain ps assumptions goal maxPasses).passes) := by
  have psNamed : ∀ f ∈ ps, f.Named := fun f member => named f (forth member)
  refine ⟨Bool.eq_iff_iff.mpr ⟨fun found => ?_, fun found => ?_⟩, fun found => ?_⟩
  · exact (found_chain_of_subset psNamed back assumptionsNamed found).1
  · exact (found_chain_of_subset named forth assumptionsNamed found).1
  · obtain ⟨otherFound, atMost⟩ := found_chain_of_subset named forth assumptionsNamed found
    obtain ⟨_, atLeast⟩ := found_chain_of_subset psNamed back assumptionsNamed otherFound
    exact Nat.le_antisymm atMost atLeast

theorem method_prove_congr (antecedentNamed : ∀ l r, goal = .implies l r → l.Named) :
    (prove qs goal maxPasses).method = (prove ps goal maxPasses).method := by
  have psNamed : ∀ f ∈ ps, f.Named := fun f member => named f (forth member)
  have direct : (prove qs goal maxPasses).method = .direct ↔
      (prove ps goal maxPasses).method = .direct :=
    ⟨direct_of_subset psNamed back, direct_of_subset named forth⟩
  have derived : (prove qs goal maxPasses).derived = true ↔
      (prove ps goal maxPasses).derived = true :=
    ⟨derived_of_subset psNamed back antecedentNamed, derived_of_subset named forth antecedentNamed⟩
  simp only [Proof.derived, decide_eq_true_eq] at derived
  cases few : (prove ps goal maxPasses).method <;>
    cases many : (prove qs goal maxPasses).method <;> simp_all

end SameSet

/-- With more premises a search still finds its goal, in no more passes, and a goal that has a
proof still has one. So it is only the set of the premises that decides whether a search finds
its goal, in how many passes, and by which method the goal is proved. The goal may be any
formula, but the antecedent that a conditional proof assumes has to have names that can be
written, as its text tells it apart from the premises. -/
theorem chain_and_prove_monotone (ps qs : List Formula) (goal : Formula) (maxPasses : Int)
    (named : ∀ f ∈ qs, f.Named) (subset : ps ⊆ qs) :
    (∀ assumptions : List Formula, (∀ f ∈ assumptions, f.Named) →
      let few := chain ps assumptions goal maxPasses
      let many := chain qs assumptions goal maxPasses
      (few.found = true → many.found = true ∧ many.passes ≤ few.passes) ∧
      (qs ⊆ ps → many.found = few.found ∧ (few.found = true → many.passes = few.passes))) ∧
    ((∀ l r, goal = .implies l r → l.Named) →
      let few := prove ps goal maxPasses
      let many := prove qs goal maxPasses
      (few.derived = true → many.derived = true) ∧
      (qs ⊆ ps → many.derived = few.derived ∧ many.method = few.method)) := by
  refine ⟨fun assumptions assumptionsNamed => ⟨?_, fun back => ?_⟩,
    fun antecedentNamed => ⟨?_, fun back => ?_⟩⟩
  · exact found_chain_of_subset named subset assumptionsNamed
  · exact found_chain_congr named subset back assumptionsNamed
  · exact derived_of_subset named subset antecedentNamed
  · have method : (prove qs goal maxPasses).method = (prove ps goal maxPasses).method :=
      method_prove_congr named subset back antecedentNamed
    exact ⟨by rw [Proof.derived, Proof.derived, method], method⟩

/-- From `Q -> R` the goal `P & Q -> R` has a conditional proof, and `P & Q -> Q` leads to it in
one pass. Both remain with `P` as a further premise and `Q -> R` given twice. -/
theorem chain_and_prove_monotone_with_repetition :
    let few : List Formula := [.implies (.var "Q") (.var "R")]
    let many : List Formula := [.implies (.var "Q") (.var "R"), .var "P",
      .implies (.var "Q") (.var "R")]
    let goal : Formula := .implies (.and (.var "P") (.var "Q")) (.var "R")
    let assumed : List Formula := [.implies (.and (.var "P") (.var "Q")) (.var "Q")]
    (prove few goal 3).method = .conditional ∧ (prove many goal 3).derived = true ∧
    (chain few assumed goal 3).passes = 1 ∧
    (chain many assumed goal 3).found = true ∧ (chain many assumed goal 3).passes ≤ 1 := by
  intro few many goal assumed
  have named : ∀ f ∈ many, f.Named := by decide +kernel
  have assumedNamed : ∀ f ∈ assumed, f.Named := by decide +kernel
  have antecedentNamed : ∀ l r, goal = .implies l r → l.Named := by
    intro l r same
    rw [← (Formula.implies.inj same).1]
    decide +kernel
  have conditional : (prove few goal 3).method = .conditional := by decide +kernel
  have passes : (chain few assumed goal 3).passes = 1 := by decide +kernel
  have found : (chain few assumed goal 3).found = true := by decide +kernel
  obtain ⟨chains, proofs⟩ := chain_and_prove_monotone few many goal 3 named (by simp [few, many])
  have derived := (proofs antecedentNamed).1 (by simp [Proof.derived, conditional])
  obtain ⟨manyFound, atMost⟩ := (chains assumed assumedNamed).1 found
  exact ⟨conditional, derived, passes, manyFound, passes ▸ atMost⟩

/-- An assumption whose text is that of the premise `A & (B & C)`, but which is `A & (B` and `C)`,
is not recorded beside that premise, nor after it. So without names that can be written a further
premise, or another order of the same premises, can lose the goal. -/
theorem chain_and_prove_not_monotone_of_odd_names :
    let plain : Formula := .and (.var "A") (.and (.var "B") (.var "C"))
    let odd : Formula := .and (.var "A & (B") (.var "C)")
    let part : Formula := .var "C)"
    let toOdd : Formula := .implies (.var "P") (.var "Q")
    let toPlain : Formula := .implies (.var "P") (.var "R")
    let rest : List Formula := [.implies (.var "R") plain, .and (.var "P") (.var "S")]
    let assumed : Formula := .implies (.var "Q") odd
    (∀ f ∈ plain :: toOdd :: toPlain :: rest, f.Named) ∧
    (chain [] [odd] part 0).found = true ∧
    (chain [plain] [odd] part 0).found = false ∧
    (prove [] (.implies odd part) 0).derived = true ∧
    (prove [plain] (.implies odd part) 0).derived = false ∧
    (chain (toOdd :: toPlain :: rest) [assumed] part 0).found = true ∧
    (chain (toPlain :: toOdd :: rest) [assumed] part 0).found = false ∧
    (prove (toOdd :: toPlain :: rest) (.implies assumed part) 0).method = .conditional ∧
    (prove (toPlain :: toOdd :: rest) (.implies assumed part) 0).method = .noProof := by
  decide +kernel

end Turnstile
