import Mathlib.Data.List.Induction
import Turnstile.Proofs.Recording

/-! Each line of a proof is a premise, an assumption, or what a rule infers from the lines that
it cites by number, all of which come before it. A search records its facts as such lines, and
all facts of a search that finds its goal are lines of the proof. Names have to be such as can
be written. -/
namespace Turnstile

/-- A line is what its reason says it is, where the lines it cites are among `lines`. -/
inductive Step.Follows (premises assumptions : List Formula) (target : Formula)
    (lines : List Step) : Step → Prop where
  /-- A premise is cited by the first of its places, counted from 1. -/
  | premise (here : premises[k]? = some f) (first : f ∉ premises.take k) :
      Follows premises assumptions target lines ⟨n, f, .premise (k + 1)⟩
  | assumption (assumed : f ∈ assumptions) :
      Follows premises assumptions target lines ⟨n, f, .assumption⟩
  | inference (cited : List Step) (known : cited ⊆ lines)
      (earlier : ∀ line ∈ cited, line.seq < n)
      (infers : Infers target rule (cited.map Step.formula) f) :
      Follows premises assumptions target lines ⟨n, f, .inference rule (cited.map Step.seq)⟩

namespace Step.Follows

variable {premises assumptions : List Formula} {target : Formula} {lines more : List Step}

theorem mono (follows : Follows premises assumptions target lines step) (subset : lines ⊆ more) :
    Follows premises assumptions target more step := by
  cases follows with
  | premise here first => exact .premise here first
  | assumption assumed => exact .assumption assumed
  | inference cited known earlier infers =>
    exact .inference cited (List.Subset.trans known subset) earlier infers

theorem sources_lt (follows : Follows premises assumptions target lines step) :
    ∀ n ∈ step.reason.sources, n < step.seq := by
  cases follows with
  | premise | assumption => simp [Reason.sources]
  | inference cited known earlier infers => simpa [Reason.sources] using earlier

end Step.Follows

namespace Run

theorem Indexed.numbered_steps {run : Run} (indexed : Indexed run) :
    ∀ i step, (run.facts.map Step.ofFact)[i]? = some step → step.seq = i + 1 := by
  intro i step here
  rw [List.getElem?_map] at here
  obtain ⟨fact, atPlace, rfl⟩ := Option.map_eq_some_iff.mp here
  exact indexed.numbered i fact atPlace

/-- An entry with a new formula is a premise at its first place or an assumption. -/
theorem follows_of_entry {premises assumptions : List Formula} {done rest : List (Formula × Reason)}
    (here : entries premises assumptions = done ++ (f, reason) :: rest)
    (new : ∀ entry ∈ done, entry.1 ≠ f) :
    Step.Follows premises assumptions target lines ⟨n, f, reason⟩ := by
  rcases entry_cases here with ⟨place, rfl, taken⟩ | ⟨assumed, rfl, _⟩
  · refine .premise place fun earlier => ?_
    rw [taken] at earlier
    obtain ⟨entry, member, same⟩ := List.mem_map.mp earlier
    exact new entry member same
  · exact .assumption assumed

structure Lists (premises assumptions : List Formula) (goal : Formula) (run : Run) : Prop where
  indexed : Indexed run
  named : ∀ fact ∈ run.facts, fact.formula.Named
  follows : ∀ fact ∈ run.facts,
    (Step.ofFact fact).Follows premises assumptions goal (run.facts.map Step.ofFact)

namespace Lists

variable {premises assumptions : List Formula} {goal : Formula} {run : Run}

theorem add (lists : Lists premises assumptions goal run) (named : f.Named)
    (follows : (¬∃ fact ∈ run.facts, fact.key = f.canonical) →
      Step.Follows premises assumptions goal (run.facts.map Step.ofFact)
        ⟨run.facts.length + 1, f, reason⟩) :
    Lists premises assumptions goal (run.add f reason) := by
  refine ⟨lists.indexed.add f reason, ?_, ?_⟩
  all_goals
    by_cases known : ∃ fact ∈ run.facts, fact.key = f.canonical
  · rw [add_of_known reason known]
    exact lists.named
  · rw [add_of_new reason known]
    simpa [or_imp, forall_and, named] using lists.named
  · rw [add_of_known reason known]
    exact lists.follows
  · rw [add_of_new reason known, List.map_append]
    intro fact member
    rcases List.mem_append.mp member with old | new
    · exact (lists.follows fact old).mono (List.subset_append_left _ _)
    · rw [List.mem_singleton.mp new]
      exact (follows known).mono (List.subset_append_left _ _)

theorem addAll (entries : List (Formula × Reason)) (named : ∀ entry ∈ entries, entry.1.Named)
    (follows : ∀ done f reason rest, entries = done ++ (f, reason) :: rest →
      (∀ entry ∈ done, entry.1 ≠ f) →
      ∀ n lines, Step.Follows premises assumptions goal lines ⟨n, f, reason⟩) :
    Lists premises assumptions goal (Run.addAll { goal := goal.canonical } entries) := by
  induction entries using List.reverseRecOn with
  | nil =>
    exact ⟨⟨List.nodup_nil, by simp [Run.addAll]⟩, by simp [Run.addAll], by simp [Run.addAll]⟩
  | append_singleton entries entry ih =>
    obtain ⟨entriesNamed, entryNamed⟩ := List.forall_mem_append.mp named
    have before := ih entriesNamed fun done f reason rest here =>
      follows done f reason (rest ++ [entry]) (by simp [here])
    rw [addAll_append]
    refine before.add (entryNamed entry (List.mem_singleton_self _)) fun unknown => ?_
    refine follows entries entry.1 entry.2 [] rfl (fun other member same => unknown ?_) _ _
    rw [← same]
    exact exists_key_addAll _ member

theorem start (named : ∀ f ∈ premises ++ assumptions, f.Named) :
    Lists premises assumptions goal (Run.start premises assumptions goal) := by
  have entriesNamed : ∀ entry ∈ entries premises assumptions, entry.1.Named := by
    intro entry member
    apply named
    rw [← map_fst_entries]
    exact List.mem_map_of_mem member
  have full : Lists premises assumptions goal
      (Run.addAll { goal := goal.canonical } (entries premises assumptions)) :=
    addAll _ entriesNamed fun done f reason rest here new n lines => follows_of_entry here new
  rw [start_eq]
  exact ⟨⟨full.indexed.distinct, full.indexed.numbered⟩, full.named, full.follows⟩

/-- What a rule infers from known facts follows as the next line. -/
theorem addCandidate (lists : Lists premises assumptions goal run) (goalNamed : goal.Named)
    {old : List Fact} (known : old ⊆ run.facts) (member : c ∈ Candidate.all goal old) :
    Lists premises assumptions goal (run.add c.formula (.inference c.rule c.sources)) := by
  have oldNamed : ∀ fact ∈ old, fact.formula.Named := fun fact h => lists.named fact (known h)
  obtain ⟨cited, subset, sources, infers⟩ :=
    Candidate.justified_of_mem_all oldNamed goalNamed member
  have citedKnown := List.Subset.trans subset known
  refine lists.add (infers.named ?_) fun _ => ?_
  · intro f h
    obtain ⟨fact, isCited, rfl⟩ := List.mem_map.mp h
    exact lists.named fact (citedKnown isCited)
  · have earlier : ∀ line ∈ cited.map Step.ofFact, line.seq < run.facts.length + 1 := by
      intro line h
      obtain ⟨fact, isCited, rfl⟩ := List.mem_map.mp h
      exact Nat.lt_succ_of_le (number_le_length lists.indexed.numbered (citedKnown isCited))
    have formulas : (cited.map Step.ofFact).map Step.formula = cited.map Fact.formula :=
      List.map_map
    have numbers : (cited.map Step.ofFact).map Step.seq = c.sources :=
      List.map_map.trans sources.symm
    rw [← numbers]
    rw [← formulas] at infers
    exact .inference _ (List.map_subset _ citedKnown) earlier infers

theorem chain (named : ∀ f ∈ premises ++ assumptions, f.Named) (goalNamed : goal.Named)
    (maxPasses : Int) :
    Lists premises assumptions goal (Turnstile.chain premises assumptions goal maxPasses) := by
  refine search_induction ?_ ?_ (start named) _
  · intro old run c known member _ lists
    exact lists.addCandidate goalNamed known member
  · intro run passes lists
    exact ⟨⟨lists.indexed.distinct, lists.indexed.numbered⟩, lists.named, lists.follows⟩

end Lists

/-- A premise is recorded as one, even if it is assumed too. -/
theorem exists_premise {premises : List Formula} (named : ∀ f ∈ premises, f.Named)
    (assumptions : List Formula) (goal : Formula) (maxPasses : Int) {p : Formula}
    (member : p ∈ premises) :
    ∃ fact ∈ (chain premises assumptions goal maxPasses).facts,
      fact.formula = p ∧ ∃ k, fact.reason = .premise k := by
  obtain ⟨fact, recorded, key⟩ := exists_key_start goal (List.mem_append_left [] member)
  have kept := ((start_nil_prefix_start premises assumptions goal).trans
    (start_prefix_chain premises assumptions goal maxPasses)).subset recorded
  rw [facts_start] at recorded
  rcases mem_of_mem_addAll recorded with none | origin
  · contradiction
  · obtain ⟨f, k, listed, rfl, reason⟩ : ∃ f k, (f, k) ∈ premises.zipIdx 1 ∧
        f = fact.formula ∧ .premise k = fact.reason := by simpa [entries] using origin
    have factNamed := named _ (List.fst_mem_of_mem_zipIdx listed)
    rw [fact.key_eq] at key
    exact ⟨fact, kept, factNamed.canonical_injective (named p member) key, k, reason.symm⟩

end Run

namespace Proof

/-- All facts of a search that found its goal are steps. -/
theorem stepsOf_chain {premises assumptions : List Formula} {goal : Formula} {maxPasses : Int}
    (found : (chain premises assumptions goal maxPasses).found = true) :
    stepsOf (chain premises assumptions goal maxPasses) =
      (chain premises assumptions goal maxPasses).facts.map Step.ofFact := by
  have indexed := Run.Indexed.chain premises assumptions goal maxPasses
  rw [stepsOf, ← max_def_lt, List.take_of_length_le]
  cases initially : (Run.start premises assumptions goal).found with
  | true =>
    rw [Run.chain_of_found initially]
    exact Nat.le_max_right _ _
  | false =>
    obtain ⟨last, atEnd, key⟩ := Run.last_of_found initially found
    have seq : last.seq = (chain premises assumptions goal maxPasses).facts.length := by
      rw [List.getLast?_eq_getElem?] at atEnd
      have bound := (List.getElem?_eq_some_iff.mp atEnd).1
      rw [indexed.numbered _ _ atEnd]
      omega
    rw [← key, indexed.find?_key (List.mem_of_getLast? atEnd), ← seq]
    exact Nat.le_max_left _ _

structure Lines (premises assumptions : List Formula) (target : Formula) (steps : List Step) :
    Prop where
  numbered : ∀ i step, steps[i]? = some step → step.seq = i + 1
  follows : ∀ step ∈ steps, step.Follows premises assumptions target steps
  premises : ∀ p ∈ premises, ∃ step ∈ steps, step.formula = p ∧ ∃ k, step.reason = .premise k

inductive Checked (premises : List Formula) : Proof → Prop where
  | direct {goal : Formula} {steps : List Step} {runs : List Run}
      (lines : Lines premises [] goal steps) (reached : ∃ step ∈ steps, step.formula = goal) :
      Checked premises ⟨goal, .direct, steps, runs⟩
  | conditional {l r : Formula} {steps : List Step} {a c : Step} {runs : List Run}
      (lines : Lines premises [l] r steps)
      (antecedent : a ∈ steps) (antecedentEq : a.formula = l)
      (consequent : c ∈ steps) (consequentEq : c.formula = r) :
      Checked premises ⟨.implies l r, .conditional, steps ++
        [⟨steps.length + 1, .implies l r, .inference .conditionalProof [a.seq, c.seq]⟩], runs⟩

namespace Checked

variable {premises : List Formula} {proof : Proof}

theorem numbered (checked : Checked premises proof) :
    ∀ i step, proof.steps[i]? = some step → step.seq = i + 1 := by
  cases checked with
  | direct lines reached => exact lines.numbered
  | conditional lines antecedent antecedentEq consequent consequentEq =>
    exact numbered_concat lines.numbered rfl

theorem sources_lt (checked : Checked premises proof) :
    ∀ step ∈ proof.steps, ∀ n ∈ step.reason.sources, n < step.seq := by
  cases checked with
  | direct lines reached => exact fun step member => (lines.follows step member).sources_lt
  | conditional lines antecedent antecedentEq consequent consequentEq =>
    intro step member
    rcases List.mem_append.mp member with line | last
    · exact (lines.follows step line).sources_lt
    · rw [List.mem_singleton.mp last]
      have cited := And.intro (number_le_length lines.numbered antecedent)
        (number_le_length lines.numbered consequent)
      simpa [Reason.sources, Nat.lt_succ_iff] using cited

theorem exists_premise (checked : Checked premises proof) (member : p ∈ premises) :
    ∃ step ∈ proof.steps, step.formula = p ∧ ∃ k, step.reason = .premise k := by
  cases checked with
  | direct lines reached => exact lines.premises p member
  | conditional lines antecedent antecedentEq consequent consequentEq =>
    obtain ⟨step, line, shape⟩ := lines.premises p member
    exact ⟨step, List.mem_append_left _ line, shape⟩

end Checked

section Prove

variable {premises assumptions : List Formula} {goal : Formula} {maxPasses : Int}

theorem lines_chain (named : ∀ f ∈ premises ++ assumptions, f.Named) (goalNamed : goal.Named) :
    Lines premises assumptions goal
      ((chain premises assumptions goal maxPasses).facts.map Step.ofFact) := by
  have lists := Run.Lists.chain named goalNamed maxPasses
  refine ⟨lists.indexed.numbered_steps, ?_, ?_⟩
  · intro step member
    obtain ⟨fact, recorded, rfl⟩ := List.mem_map.mp member
    exact lists.follows fact recorded
  · intro p member
    obtain ⟨fact, recorded, shape⟩ := Run.exists_premise
      (List.forall_mem_append.mp named).1 assumptions goal maxPasses member
    exact ⟨Step.ofFact fact, List.mem_map_of_mem recorded, shape⟩

theorem goal_prove (premises : List Formula) (goal : Formula) (maxPasses : Int) :
    (prove premises goal maxPasses).goal = goal := by
  unfold prove
  dsimp only
  split
  · rfl
  · split
    · split <;> rfl
    · rfl

theorem prove_of_found (found : (chain premises [] goal maxPasses).found = true) :
    prove premises goal maxPasses = ⟨goal, .direct,
      (chain premises [] goal maxPasses).facts.map Step.ofFact,
      [chain premises [] goal maxPasses]⟩ := by
  unfold prove
  dsimp only
  rw [if_pos found, stepsOf_chain found]

theorem exists_key_of_found (found : (chain premises assumptions goal maxPasses).found = true) :
    ∃ fact ∈ (chain premises assumptions goal maxPasses).facts, fact.key = goal.canonical :=
  (Run.records_chain premises assumptions goal maxPasses).found.mp found

/-- The last step of a conditional proof cites the assumption and what was derived from it. -/
theorem prove_of_assumed {l r : Formula}
    (missed : (chain premises [] (.implies l r) maxPasses).found = false)
    (found : (chain premises [l] r maxPasses).found = true) :
    let lines := (chain premises [l] r maxPasses).facts.map Step.ofFact
    ∃ a ∈ lines, ∃ c ∈ lines, a.text = l.canonical ∧ c.text = r.canonical ∧
      prove premises (.implies l r) maxPasses = ⟨.implies l r, .conditional,
        lines ++ [⟨lines.length + 1, .implies l r, .inference .conditionalProof [a.seq, c.seq]⟩],
        [chain premises [] (.implies l r) maxPasses, chain premises [l] r maxPasses]⟩ := by
  have indexed := Run.Indexed.chain premises [l] r maxPasses
  have assumed : ∃ fact ∈ (chain premises [l] r maxPasses).facts, fact.key = l.canonical := by
    obtain ⟨fact, recorded, key⟩ :=
      Run.exists_key_start r (List.mem_append_right premises (List.mem_singleton_self l))
    exact ⟨fact, (Run.start_prefix_chain _ _ _ maxPasses).subset recorded, key⟩
  obtain ⟨a, antecedent, antecedentKey, atAntecedent⟩ := indexed.exists_fact? assumed
  obtain ⟨c, consequent, consequentKey, atConsequent⟩ :=
    indexed.exists_fact? (exists_key_of_found found)
  refine ⟨_, List.mem_map_of_mem antecedent, _, List.mem_map_of_mem consequent,
    a.key_eq.symm.trans antecedentKey, c.key_eq.symm.trans consequentKey, ?_⟩
  simp only [prove, missed, found, stepsOf_chain found, discharge, atAntecedent, atConsequent]
  rfl

/-- Lines are found by their texts if all names can be written. -/
theorem formula_eq_of_text (named : ∀ f ∈ premises ++ assumptions, f.Named) (goalNamed : goal.Named)
    {line : Step} {f : Formula} (fNamed : f.Named) (same : line.text = f.canonical)
    (member : line ∈ (chain premises assumptions goal maxPasses).facts.map Step.ofFact) :
    line.formula = f := by
  obtain ⟨fact, recorded, rfl⟩ := List.mem_map.mp member
  exact ((Run.Lists.chain named goalNamed maxPasses).named fact recorded).canonical_injective
    fNamed same

theorem checked_direct (named : ∀ f ∈ premises, f.Named) (goalNamed : goal.Named)
    (found : (chain premises [] goal maxPasses).found = true) :
    Checked premises (prove premises goal maxPasses) := by
  have named : ∀ f ∈ premises ++ [], f.Named := by simpa using named
  obtain ⟨fact, recorded, key⟩ := exists_key_of_found found
  have line := List.mem_map_of_mem (f := Step.ofFact) recorded
  rw [prove_of_found found]
  exact .direct (lines_chain named goalNamed)
    ⟨_, line, formula_eq_of_text named goalNamed goalNamed (fact.key_eq.symm.trans key) line⟩

theorem checked_conditional {l r : Formula} (named : ∀ f ∈ premises ++ [l], f.Named)
    (rNamed : r.Named) (missed : (chain premises [] (.implies l r) maxPasses).found = false)
    (found : (chain premises [l] r maxPasses).found = true) :
    Checked premises (prove premises (.implies l r) maxPasses) := by
  have lNamed := named l (List.mem_append_right premises (List.mem_singleton_self l))
  obtain ⟨a, antecedent, c, consequent, aText, cText, steps⟩ := prove_of_assumed missed found
  rw [steps]
  exact .conditional (lines_chain named rNamed)
    antecedent (formula_eq_of_text named rNamed lNamed aText antecedent)
    consequent (formula_eq_of_text named rNamed rNamed cText consequent)

theorem checked_of_derived (named : ∀ f ∈ premises, f.Named) (goalNamed : goal.Named)
    (derived : (prove premises goal maxPasses).derived = true) :
    Checked premises (prove premises goal maxPasses) := by
  cases direct : (chain premises [] goal maxPasses).found with
  | true => exact checked_direct named goalNamed direct
  | false =>
    rcases derived_prove_iff.mp derived with found | ⟨l, r, rfl, second⟩
    · rw [direct] at found
      contradiction
    · rw [Formula.named_implies] at goalNamed
      have allNamed : ∀ f ∈ premises ++ [l], f.Named :=
        List.forall_mem_append.mpr ⟨named, by simpa using goalNamed.1⟩
      exact checked_conditional allNamed goalNamed.2 direct second

end Prove

end Proof

/-- A proof that is found can be checked line by line. All lines are numbered in order, cite
only lines before them, and are premises, assumptions or inferences as their reasons say. A
direct proof has no assumption and reaches the goal. Any other assumes only the antecedent,
reaches the consequent, and ends by citing the two in this order. -/
theorem prove_checks_line_by_line (premises : List Formula) (goal : Formula) (maxPasses : Int)
    (named : ∀ f ∈ premises, f.Named) (goalNamed : goal.Named)
    (derived : (prove premises goal maxPasses).derived = true) :
    let proof := prove premises goal maxPasses
    (∀ i step, proof.steps[i]? = some step → step.seq = i + 1) ∧
    (∀ step ∈ proof.steps, ∀ n ∈ step.reason.sources, n < step.seq) ∧
    (∀ p ∈ premises, ∃ step ∈ proof.steps, step.formula = p ∧ ∃ k, step.reason = .premise k) ∧
    ((proof.method = .direct ∧
      (∀ step ∈ proof.steps, step.Follows premises [] goal proof.steps) ∧
      ∃ step ∈ proof.steps, step.formula = goal) ∨
    (proof.method = .conditional ∧ ∃ l r lines, ∃ a ∈ lines, ∃ c ∈ lines, goal = .implies l r ∧
      proof.steps = lines ++
        [⟨lines.length + 1, goal, .inference .conditionalProof [a.seq, c.seq]⟩] ∧
      (∀ step ∈ lines, step.Follows premises [l] r lines) ∧ a.formula = l ∧ c.formula = r)) := by
  have checked := Proof.checked_of_derived named goalNamed derived
  refine ⟨checked.numbered, checked.sources_lt, fun p => checked.exists_premise, ?_⟩
  have same := Proof.goal_prove premises goal maxPasses
  generalize prove premises goal maxPasses = proof at checked same
  subst same
  cases checked with
  | direct lines reached => exact .inl ⟨rfl, lines.follows, reached⟩
  | conditional lines antecedent antecedentEq consequent consequentEq =>
    exact .inr ⟨rfl, _, _, _, _, antecedent, _, consequent, rfl, rfl, lines.follows,
      antecedentEq, consequentEq⟩

/-- The premise `P -> Q` is the third one, although it is on the second line. -/
theorem prove_checks_line_by_line_of_repeated_premise :
    let premises : List Formula := [.var "P", .var "P", .implies (.var "P") (.var "Q")]
    let steps := (prove premises (.var "Q") 0).steps
    steps = [⟨1, .var "P", .premise 1⟩, ⟨2, .implies (.var "P") (.var "Q"), .premise 3⟩,
      ⟨3, .var "Q", .inference .modusPonens [2, 1]⟩] ∧
    ∀ step ∈ steps, step.Follows premises [] (.var "Q") steps := by
  intro premises steps
  have named : ∀ f ∈ premises, f.Named := by decide +kernel
  have goalNamed : Formula.Named (.var "Q") := by decide +kernel
  have direct : (prove premises (.var "Q") 0).method = .direct := by decide +kernel
  have derived : (prove premises (.var "Q") 0).derived = true := by simp [Proof.derived, direct]
  refine ⟨by decide +kernel, ?_⟩
  obtain ⟨_, _, _, ⟨_, follows, _⟩ | ⟨conditional, _⟩⟩ :=
    prove_checks_line_by_line premises _ 0 named goalNamed derived
  · exact follows
  · rw [direct] at conditional
    contradiction

end Turnstile
