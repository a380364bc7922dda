import Mathlib.Order.Bounds.Basic
import Turnstile.Proofs.Recording

/-! In each round every rule is applied to everything that is known. A pass of a search skips
pairs of equal facts and ends with the goal, but as long as the goal is not found, what is
recorded after a number of passes is all that is known after that number of rounds. -/
namespace Turnstile

def rounds (goal : Formula) (initial : List Formula) : Nat → Set Formula
  | 0 => {f | f ∈ initial}
  | k + 1 => rounds goal initial k ∪
      {f | ∃ rule fs, (∀ g ∈ fs, g ∈ rounds goal initial k) ∧ Infers goal rule fs f}

def Closed (goal : Formula) (known : Set Formula) : Prop :=
  ∀ rule fs f, (∀ g ∈ fs, g ∈ known) → Infers goal rule fs f → f ∈ known

section Rounds

variable {goal : Formula} {initial : List Formula}

theorem rounds_mono {j k : Nat} (le : j ≤ k) : rounds goal initial j ⊆ rounds goal initial k := by
  induction le with
  | refl => exact subset_rfl
  | step _ ih => exact ih.trans Set.subset_union_left

theorem mem_rounds_succ_of_infers {k : Nat} (known : ∀ g ∈ fs, g ∈ rounds goal initial k)
    (infers : Infers goal rule fs f) : f ∈ rounds goal initial (k + 1) :=
  Or.inr ⟨rule, fs, known, infers⟩

/-- A round that adds nothing is the last one that matters. -/
theorem closed_of_subset {k : Nat}
    (same : rounds goal initial (k + 1) ⊆ rounds goal initial k) :
    Closed goal (rounds goal initial (k + 1)) := by
  intro rule fs f known infers
  exact mem_rounds_succ_of_infers (fun g member => same (known g member)) infers

theorem Closed.rounds_subset {j k : Nat} (closed : Closed goal (rounds goal initial j))
    (le : j ≤ k) : rounds goal initial k ⊆ rounds goal initial j := by
  induction le with
  | refl => exact subset_rfl
  | step _ ih =>
    rintro f (old | ⟨rule, fs, known, infers⟩)
    · exact ih old
    · exact closed rule fs f (fun g member => ih (known g member)) infers

end Rounds

namespace Candidate

theorem mem_all_of_one {goal : Formula} {facts : List Fact} {f : Fact} {c : Candidate}
    (known : f ∈ facts) (member : c ∈ simplify f ++ doubleGoal goal f) : c ∈ all goal facts :=
  List.mem_flatMap.mpr ⟨f, known, List.mem_append_left _ member⟩

theorem mem_all_of_two {goal : Formula} {facts : List Fact} {f g : Fact} {c : Candidate}
    (major : f ∈ facts) (minor : g ∈ facts) (apart : g.key ≠ f.key)
    (member : c ∈ combine f g ++ joinGoal goal f g) : c ∈ all goal facts := by
  refine List.mem_flatMap.mpr ⟨f, major, List.mem_append_right _ ?_⟩
  exact List.mem_flatMap.mpr ⟨g, List.mem_filter.mpr ⟨minor, by simpa using apart⟩, member⟩

theorem forall_mem_two {P : α → Prop} : (∀ x ∈ [a, b], P x) ↔ P a ∧ P b := by simp

section Complete

variable {goal : Formula} {facts : List Fact} (named : ∀ fact ∈ facts, fact.formula.Named)

include named

theorem exists_of_two {f g : Fact} {c : Candidate} (major : f ∈ facts) (minor : g ∈ facts)
    (different : g.formula ≠ f.formula) (member : c ∈ combine f g ++ joinGoal goal f g) :
    ∃ d ∈ all goal facts, d.formula = c.formula := by
  refine ⟨c, mem_all_of_two major minor (fun same => different ?_) member, rfl⟩
  exact formula_eq_of_key named minor (named f major) (same.trans f.key_eq)

/-- Whatever a rule infers from known facts is known or a candidate. Of the pairs that a pass
leaves out, the rules apply to two: a syllogism of a fact with itself infers the fact again,
and the goal `A & A` is looked for apart. -/
theorem known_or_mem_all {r : Rule} (infers : Infers goal r fs f)
    (known : ∀ g ∈ fs, ∃ fact ∈ facts, fact.formula = g) :
    (∃ fact ∈ facts, fact.formula = f) ∨ ∃ c ∈ all goal facts, c.formula = f := by
  cases infers with
  | simplifyLeft | simplifyRight =>
    obtain ⟨⟨a, aKnown, shape⟩, _⟩ := List.forall_mem_cons.mp known
    refine .inr ⟨⟨f, .simplification, [a.seq]⟩, mem_all_of_one aKnown ?_, rfl⟩
    simp [simplify, shape]
  | modusPonens =>
    obtain ⟨⟨a, aKnown, major⟩, ⟨b, bKnown, minor⟩⟩ := forall_mem_two.mp known
    refine .inr (exists_of_two (c := ⟨f, .modusPonens, [a.seq, b.seq]⟩) named aKnown bKnown ?_ ?_)
    · rw [major, minor]
      intro equal
      have sizes := congrArg sizeOf equal
      rw [Formula.implies.sizeOf_spec] at sizes
      omega
    · simp [combine, major, minor, b.key_eq]
  | @modusTollens l =>
    obtain ⟨⟨a, aKnown, major⟩, ⟨b, bKnown, minor⟩⟩ := forall_mem_two.mp known
    refine .inr (exists_of_two
      (c := ⟨l.not, .modusTollens, [a.seq, b.seq]⟩) named aKnown bKnown ?_ ?_)
    · simp [major, minor]
    · simp [combine, major, minor, b.key_eq]
  | @hypotheticalSyllogism l m r =>
    obtain ⟨⟨a, aKnown, major⟩, ⟨b, bKnown, minor⟩⟩ := forall_mem_two.mp known
    by_cases equal : b.formula = a.formula
    · have sides : m = l ∧ r = m := by simpa [major, minor] using equal
      exact .inl ⟨a, aKnown, by rw [major, sides.2]⟩
    · refine .inr (exists_of_two
        (c := ⟨.implies l r, .hypotheticalSyllogism, [a.seq, b.seq]⟩) named aKnown bKnown equal ?_)
      simp [combine, major, minor]
  | disjunctiveSyllogismLeft | disjunctiveSyllogismRight =>
    obtain ⟨⟨a, aKnown, major⟩, ⟨b, bKnown, minor⟩⟩ := forall_mem_two.mp known
    refine .inr (exists_of_two
      (c := ⟨f, .disjunctiveSyllogism, [a.seq, b.seq]⟩) named aKnown bKnown ?_ ?_)
    · simp [major, minor]
    · simp [combine, major, minor, b.key_eq]
  | @conjunction l r whole =>
    obtain ⟨⟨a, aKnown, left⟩, ⟨b, bKnown, right⟩⟩ := forall_mem_two.mp known
    by_cases equal : b.formula = a.formula
    · refine .inr ⟨⟨goal, .conjunction, [a.seq, a.seq]⟩, mem_all_of_one aKnown ?_, rfl⟩
      have sides : r = l := by rw [← left, ← right, equal]
      simp [doubleGoal, whole, sides, a.key_eq, left]
    · refine .inr (exists_of_two
        (c := ⟨goal, .conjunction, [a.seq, b.seq]⟩) named aKnown bKnown equal ?_)
      simp [joinGoal, whole, a.key_eq, b.key_eq, left, right]

end Complete

end Candidate

namespace Run

theorem Records.mono {P Q : Formula → Prop} {run : Run} (records : Records target P run)
    (weaker : ∀ f, P f → Q f) : Records target Q run :=
  ⟨records.goal, records.found, fun fact member => weaker _ (records.facts fact member)⟩

def recorded (run : Run) : Set Formula :=
  {f | ∃ fact ∈ run.facts, fact.formula = f}

theorem mem_recorded_of_key {run : Run} (factsNamed : ∀ fact ∈ run.facts, fact.formula.Named)
    {f : Formula} (named : f.Named) (known : ∃ fact ∈ run.facts, fact.key = f.canonical) :
    f ∈ run.recorded := by
  obtain ⟨fact, member, key⟩ := known
  exact ⟨fact, member, Candidate.formula_eq_of_key factsNamed member named key⟩

theorem recorded_subset_pass (run : Run) (goal : Formula) :
    run.recorded ⊆ (run.pass goal).1.recorded := by
  rintro f ⟨fact, member, shape⟩
  exact ⟨fact, (run.facts_prefix_pass goal).subset member, shape⟩

/-- A search that has gone through as many rounds as it has made passes, where it may have
left the last one early with the goal. -/
structure AtRound (goal : Formula) (initial : List Formula) (run : Run) : Prop where
  records : Records goal (fun f => f.Named ∧ f ∈ rounds goal initial run.passes) run
  complete : run.found = false → rounds goal initial run.passes ⊆ run.recorded
  earlier : ∀ k < run.passes, goal ∉ rounds goal initial k

namespace AtRound

variable {goal : Formula} {initial : List Formula} {run : Run}

theorem factsNamed (here : AtRound goal initial run) : ∀ fact ∈ run.facts, fact.formula.Named :=
  fun fact member => (here.records.facts fact member).1

theorem recorded_subset (here : AtRound goal initial run) :
    run.recorded ⊆ rounds goal initial run.passes := by
  rintro f ⟨fact, member, rfl⟩
  exact (here.records.facts fact member).2

theorem recorded_eq (here : AtRound goal initial run) (unfound : run.found = false) :
    run.recorded = rounds goal initial run.passes :=
  here.recorded_subset.antisymm (here.complete unfound)

theorem found_iff (here : AtRound goal initial run) (goalNamed : goal.Named) :
    run.found = true ↔ goal ∈ rounds goal initial run.passes := by
  constructor
  · intro found
    have known := here.records.found.mp found
    exact here.recorded_subset (mem_recorded_of_key here.factsNamed goalNamed known)
  · intro reached
    by_contra unfound
    obtain ⟨fact, member, shape⟩ := here.complete (Bool.eq_false_iff.mpr unfound) reached
    exact unfound (here.records.found.mpr ⟨fact, member, by rw [fact.key_eq, shape]⟩)

theorem start {premises assumptions : List Formula}
    (named : ∀ f ∈ premises ++ assumptions, f.Named) :
    AtRound goal (premises ++ assumptions) (Run.start premises assumptions goal) := by
  obtain ⟨premisesNamed, assumptionsNamed⟩ := List.forall_mem_append.mp named
  have records : Records goal (fun f => f.Named ∧ f ∈ premises ++ assumptions)
      (Run.start premises assumptions goal) := by
    refine .start (fun f member => ?_) (fun f member => ?_)
    · exact ⟨premisesNamed f member, List.mem_append_left _ member⟩
    · exact ⟨assumptionsNamed f member, List.mem_append_right _ member⟩
  refine ⟨?_, ?_, ?_⟩
  · rwa [passes_start]
  · rw [passes_start]
    intro _ f member
    have factsNamed := fun fact h => (records.facts fact h).1
    exact mem_recorded_of_key factsNamed (named f member) (exists_key_start goal member)
  · simp

/-- A pass goes through one more round. -/
theorem pass (here : AtRound goal initial run) (goalNamed : goal.Named)
    (unfound : run.found = false) : AtRound goal initial (run.pass goal).1 := by
  have proper : ∀ c ∈ Candidate.all goal run.facts,
      c.formula.Named ∧ c.formula ∈ rounds goal initial (run.passes + 1) := by
    intro c member
    obtain ⟨cited, subset, _, infers⟩ :=
      Candidate.justified_of_mem_all here.factsNamed goalNamed member
    have known : ∀ f ∈ cited.map Fact.formula, f.Named ∧ f ∈ rounds goal initial run.passes := by
      intro f h
      obtain ⟨fact, isCited, rfl⟩ := List.mem_map.mp h
      exact here.records.facts fact (subset isCited)
    exact ⟨infers.named fun f h => (known f h).1,
      mem_rounds_succ_of_infers (fun f h => (known f h).2) infers⟩
  have weaker : Records goal (fun f => f.Named ∧ f ∈ rounds goal initial (run.passes + 1)) run :=
    here.records.mono fun f old => ⟨old.1, rounds_mono (Nat.le_succ _) old.2⟩
  have extended := weaker.extend proper
  have records : Records goal (fun f => f.Named ∧ f ∈ rounds goal initial (run.passes + 1))
      (run.pass goal).1 := ⟨extended.goal, extended.found, extended.facts⟩
  refine ⟨records, ?_, ?_⟩
  · intro unfoundAfter
    have kept := run.recorded_subset_pass goal
    rintro f (old | ⟨rule, fs, known, infers⟩)
    · exact kept (here.complete unfound old)
    · have known := fun g h => here.complete unfound (known g h)
      rcases Candidate.known_or_mem_all here.factsNamed infers known with old | ⟨c, member, rfl⟩
      · exact kept old
      · have key := exists_key_extend run member unfoundAfter
        exact mem_recorded_of_key (fun fact h => (records.facts fact h).1) (proper c member).1 key
  · intro k below
    rcases Nat.lt_succ_iff_lt_or_eq.mp below with below | rfl
    · exact here.earlier k below
    · rw [← here.found_iff goalNamed, unfound]
      exact Bool.false_ne_true

/-- A search goes through all its rounds, unless it ends with the goal or with a round that
adds nothing. -/
theorem search (here : AtRound goal initial run) (goalNamed : goal.Named) (n : Nat) :
    AtRound goal initial (run.search goal n) ∧
    (run.search goal n).passes ≤ run.passes + n ∧
    ((run.search goal n).found = false → (run.search goal n).passes = run.passes + n ∨
      Closed goal (rounds goal initial (run.search goal n).passes)) := by
  induction n generalizing run with
  | zero => exact ⟨here, le_rfl, fun _ => .inl rfl⟩
  | succ n ih =>
    have passes : (run.pass goal).1.passes = run.passes + 1 := rfl
    rcases run.search_cases goal with ⟨found, same⟩ | ⟨searching, nothing, stopped⟩ |
      ⟨searching, _, onward⟩
    · rw [same]
      refine ⟨here, Nat.le_add_right _ _, fun unfound => ?_⟩
      rw [found] at unfound
      contradiction
    · rw [stopped]
      have next := here.pass goalNamed searching
      refine ⟨next, by omega, fun unfound => .inr ?_⟩
      have same := run.facts_pass_of_not_added nothing
      apply closed_of_subset
      calc rounds goal initial (run.passes + 1)
          ⊆ (run.pass goal).1.recorded := next.complete unfound
        _ = run.recorded := by rw [recorded, recorded, same]
        _ ⊆ rounds goal initial run.passes := here.recorded_subset
    · rw [onward]
      obtain ⟨after, bound, ended⟩ := ih (here.pass goalNamed searching)
      rw [passes] at bound ended
      refine ⟨after, by omega, fun unfound => ?_⟩
      rcases ended unfound with all | closed
      · exact .inl (by omega)
      · exact .inr closed

end AtRound

end Run

section Chain

variable {premises assumptions : List Formula} {goal : Formula}
variable (named : ∀ f ∈ premises ++ assumptions, f.Named) (goalNamed : goal.Named)
variable (maxPasses : Int)

include named goalNamed

theorem chain_atRound : (chain premises assumptions goal maxPasses).AtRound goal
    (premises ++ assumptions) :=
  ((Run.AtRound.start named).search goalNamed _).1

theorem passes_chain_le :
    (chain premises assumptions goal maxPasses).passes ≤ Run.bound maxPasses := by
  have bound := ((Run.AtRound.start named).search goalNamed (Run.bound maxPasses)).2.1
  rwa [Run.passes_start, Nat.zero_add] at bound

theorem chain_stopped (unfound : (chain premises assumptions goal maxPasses).found = false) :
    (chain premises assumptions goal maxPasses).passes = Run.bound maxPasses ∨
    Closed goal (rounds goal (premises ++ assumptions)
      (chain premises assumptions goal maxPasses).passes) := by
  have stopped := ((Run.AtRound.start named).search goalNamed (Run.bound maxPasses)).2.2 unfound
  rwa [Run.passes_start, Nat.zero_add] at stopped

/-- A round that infers nothing new stands for all later ones, so that a search that stops
early misses no goal. -/
theorem found_chain_iff : (chain premises assumptions goal maxPasses).found = true ↔
    goal ∈ rounds goal (premises ++ assumptions) (Run.bound maxPasses) := by
  have here := chain_atRound named goalNamed maxPasses
  have passes := passes_chain_le named goalNamed maxPasses
  rw [here.found_iff goalNamed]
  refine ⟨fun reached => rounds_mono passes reached, fun reached => ?_⟩
  by_contra missed
  have unfound := Bool.eq_false_iff.mpr (mt (here.found_iff goalNamed).mp missed)
  rcases chain_stopped named goalNamed maxPasses unfound with all | closed
  · exact missed (all ▸ reached)
  · exact missed (closed.rounds_subset passes reached)

end Chain

/-- A search finds its goal if and only if some round within its bound reaches it, and then
in the first such round. Otherwise it has recorded exactly what its last round reaches, and
has stopped at its bound or because nothing new can be inferred. -/
theorem chain_computes_rounds (premises assumptions : List Formula) (goal : Formula)
    (maxPasses : Int) (named : ∀ f ∈ premises ++ assumptions, f.Named) (goalNamed : goal.Named) :
    let run := chain premises assumptions goal maxPasses
    let known := rounds goal (premises ++ assumptions)
    let bound := if maxPasses ≤ 0 then 5000 else maxPasses.toNat
    (run.found = true ↔ goal ∈ known bound) ∧
    (run.found = true → IsLeast {k | goal ∈ known k} run.passes ∧
      ∀ fact ∈ run.facts, fact.formula ∈ known run.passes) ∧
    (run.found = false → run.recorded = known run.passes ∧
      (run.passes = bound ∨ Closed goal (known run.passes))) := by
  intro run known bound
  have here : run.AtRound goal (premises ++ assumptions) :=
    chain_atRound named goalNamed maxPasses
  refine ⟨found_chain_iff named goalNamed maxPasses, fun found => ⟨⟨?_, ?_⟩, ?_⟩, fun unfound => ?_⟩
  · exact (here.found_iff goalNamed).mp found
  · intro k reached
    by_contra below
    exact here.earlier k (Nat.lt_of_not_le below) reached
  · intro fact member
    exact (here.records.facts fact member).2
  · exact ⟨here.recorded_eq unfound, chain_stopped named goalNamed maxPasses unfound⟩

/-- From `P -> Q`, `Q -> R` and `P` the first round reaches `Q` and only the second `R`. -/
theorem chain_computes_rounds_in_two :
    let premises : List Formula :=
      [.implies (.var "P") (.var "Q"), .implies (.var "Q") (.var "R"), .var "P"]
    (chain premises [] (.var "R") 7).passes = 2 ∧
    IsLeast {k | Formula.var "R" ∈ rounds (.var "R") (premises ++ []) k} 2 := by
  intro premises
  have named : ∀ f ∈ premises ++ [], f.Named := by decide +kernel
  have goalNamed : Formula.Named (.var "R") := by decide +kernel
  have found : (chain premises [] (.var "R") 7).found = true := by decide +kernel
  have passes : (chain premises [] (.var "R") 7).passes = 2 := by decide +kernel
  have least := ((chain_computes_rounds _ _ _ 7 named goalNamed).2.1 found).1
  rw [passes] at least
  exact ⟨passes, least⟩

end Turnstile
