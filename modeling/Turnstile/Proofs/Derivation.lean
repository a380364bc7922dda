import Turnstile.Proofs.Lines

/-! Every fact of a search can be accounted for: the facts that were given come first, and each
later fact cites one or two facts before it, by their texts and by their numbers. Whether a
search has found its goal can be read off its facts. That a fact follows from those that it
cites is not said here. -/
namespace Turnstile

namespace Text

theorem ofNat_ne_nil (n : Nat) : ofNat n ≠ [] := by
  have digits : (toString n).toList ≠ [] := by
    rw [ne_eq, String.toList_eq_nil_iff]
    exact Nat.repr_ne_empty
  obtain ⟨c, cs, first⟩ := List.exists_cons_of_ne_nil digits
  rw [ofNat, ofString, first, encode_cons]
  exact List.append_ne_nil_of_left_ne_nil String.utf8EncodeChar_ne_nil _

theorem join_ne_nil {sep : Text} {ts : List Text} (nonempty : ts ≠ []) (filled : ∀ t ∈ ts, t ≠ []) :
    join sep ts ≠ [] := by
  obtain ⟨t, ts, rfl⟩ := List.exists_cons_of_ne_nil nonempty
  have first := filled t List.mem_cons_self
  cases ts with
  | nil => exact first
  | cons u us => exact List.append_ne_nil_of_left_ne_nil first _

end Text

namespace Fact

/-- The fact is a premise, under the number of the first premise with its text. -/
def IsPremise (premises : List Formula) (fact : Fact) : Prop :=
  ∃ k, fact.reason = .premise (k + 1) ∧ fact.reference = Text.ofNat (k + 1) ∧
    premises[k]? = some fact.formula ∧ ∀ p ∈ premises.take k, p.canonical ≠ fact.key

def IsAssumption (premises assumptions : List Formula) (fact : Fact) : Prop :=
  fact.reason = .assumption ∧ fact.reference = [] ∧ fact.formula ∈ assumptions ∧
    ∀ p ∈ premises, p.canonical ≠ fact.key

/-- The fact was inferred from one or two of `facts`, without discharging an assumption. -/
def InferredFrom (facts : List Fact) (fact : Fact) : Prop :=
  ∃ cited ⊆ facts, (cited.length = 1 ∨ cited.length = 2) ∧
    ∃ rule ≠ Rule.conditionalProof, fact.reason = .inference rule (cited.map seq)

theorem InferredFrom.mono {facts more : List Fact} {fact : Fact}
    (inferred : fact.InferredFrom facts) (grows : facts ⊆ more) : fact.InferredFrom more := by
  obtain ⟨cited, known, shape⟩ := inferred
  exact ⟨cited, List.Subset.trans known grows, shape⟩

/-- The fact was inferred from one or two facts before it, which it cites by their texts and by
their numbers. -/
structure Cites (run : Run) (fact : Fact) (cited : List Fact) : Prop where
  size : cited.length = 1 ∨ cited.length = 2
  inferred : ∃ rule ≠ Rule.conditionalProof, fact.reason = .inference rule (cited.map seq)
  known : ∀ c ∈ cited, run.find? c.key = some c ∧ c.seq < fact.seq
  keys : run.sourceKeys fact = cited.map key
  reference : fact.reference = Text.join ", " (cited.map fun c => Text.ofNat c.seq)

/-- A fact and its line give one justification, unless an assumption is discharged or nothing is
cited. -/
theorem justification_eq {fact : Fact}
    (cites : ∀ rule sources, fact.reason = .inference rule sources →
      rule ≠ .conditionalProof ∧ sources ≠ []) :
    (Step.ofFact fact).justification = fact.justification := by
  obtain ⟨seq, formula, reason, key, key_eq⟩ := fact
  cases reason with
  | premise n =>
    have filled : ¬(Text.ofNat n).isEmpty = true := by simp [Text.ofNat_ne_nil]
    exact (if_neg filled).symm
  | assumption => rfl
  | inference rule sources =>
    obtain ⟨other, nonempty⟩ := cites rule sources rfl
    have filled : ¬(Text.join ", " (sources.map Text.ofNat)).isEmpty = true := by
      rw [List.isEmpty_iff]
      refine Text.join_ne_nil (by simpa using nonempty) ?_
      exact List.forall_mem_map.mpr fun n _ => Text.ofNat_ne_nil n
    cases rule with
    | conditionalProof => contradiction
    | _ => exact (if_neg filled).symm

theorem IsPremise.justification {fact : Fact} (premise : fact.IsPremise premises) :
    (Step.ofFact fact).justification = fact.justification := by
  obtain ⟨k, reason, _⟩ := premise
  exact justification_eq (by simp [reason])

theorem IsAssumption.justification {fact : Fact}
    (assumption : fact.IsAssumption premises assumptions) :
    (Step.ofFact fact).justification = fact.justification :=
  justification_eq (by simp [assumption.1])

theorem InferredFrom.justification {facts : List Fact} {fact : Fact}
    (inferred : fact.InferredFrom facts) :
    (Step.ofFact fact).justification = fact.justification := by
  obtain ⟨cited, _, size, rule, other, reason⟩ := inferred
  apply justification_eq
  intro rule' sources same
  obtain ⟨rfl, rfl⟩ := Reason.inference.inj (reason.symm.trans same)
  refine ⟨other, fun none => ?_⟩
  obtain rfl := List.map_eq_nil_iff.mp none
  exact size.elim nofun nofun

theorem InferredFrom.exists_cites {run : Run} {fact : Fact} (earlier : run.CitesEarlier)
    (member : fact ∈ run.facts) (inferred : fact.InferredFrom run.facts) :
    ∃ cited, fact.Cites run cited := by
  obtain ⟨cited, known, size, rule, other, reason⟩ := inferred
  have sources : fact.reason.sources = cited.map seq := by rw [reason, Reason.sources]
  refine ⟨cited, size, ⟨rule, other, reason⟩, fun c isCited => ⟨?_, ?_⟩, ?_, ?_⟩
  · exact earlier.find?_key (known isCited)
  · have source : c.seq ∈ fact.reason.sources := sources ▸ List.mem_map_of_mem isCited
    exact (earlier.earlier fact member _ source).2
  · exact earlier.sourceKeys_eq known sources
  · rw [Fact.reference, reason]
    simp only [List.map_map, Function.comp_def]

end Fact

namespace Run

/-- A fact that was recorded for an entry comes from the first entry with its text. -/
theorem exists_first_entry {goal : Text} {entries : List (Formula × Reason)} {fact : Fact}
    (member : fact ∈ (addAll { goal := goal } entries).facts) :
    ∃ done rest, entries = done ++ (fact.formula, fact.reason) :: rest ∧
      ∀ entry ∈ done, entry.1.canonical ≠ fact.key := by
  induction entries using List.reverseRecOn with
  | nil => contradiction
  | append_singleton entries entry ih =>
    have old (before : fact ∈ (addAll { goal := goal } entries).facts) :
        ∃ done rest, entries ++ [entry] = done ++ (fact.formula, fact.reason) :: rest ∧
          ∀ entry ∈ done, entry.1.canonical ≠ fact.key := by
      obtain ⟨done, rest, split, first⟩ := ih before
      exact ⟨done, rest ++ [entry], by simp [split], first⟩
    rw [addAll_append] at member
    change fact ∈ ((addAll { goal := goal } entries).add entry.1 entry.2).facts at member
    by_cases known : ∃ other ∈ (addAll { goal := goal } entries).facts,
        other.key = entry.1.canonical
    · rw [add_of_known _ known] at member
      exact old member
    · rw [add_of_new _ known] at member
      rcases List.mem_append.mp member with before | new
      · exact old before
      · obtain rfl := List.mem_singleton.mp new
        refine ⟨entries, [], rfl, fun other earlier same => known ?_⟩
        obtain ⟨fact, recorded, key⟩ := exists_key_addAll { goal := goal } earlier
        exact ⟨fact, recorded, key.trans same⟩

def order (run : Run) : List Text :=
  run.facts.map Fact.key

structure WellFormed (premises assumptions : List Formula) (goal : Formula) (run : Run) :
    Prop where
  distinct : run.order.Nodup
  keys : ∀ key, key ∈ run.order ↔ (run.find? key).isSome = true
  lookup : ∀ key fact, run.find? key = some fact →
    fact.formula.canonical = key ∧ 0 < fact.seq ∧ run.order[fact.seq - 1]? = some key
  initial_le : run.initial ≤ run.facts.length
  given : ∀ i fact, run.facts[i]? = some fact → i < run.initial →
    fact.IsPremise premises ∨ fact.IsAssumption premises assumptions
  inferred : ∀ i fact, run.facts[i]? = some fact → run.initial ≤ i → ∃ cited, fact.Cites run cited
  recorded : ∀ f ∈ premises ++ assumptions, f.canonical ∈ run.order.take run.initial
  target : run.goal = goal.canonical
  found : run.found = true ↔ goal.canonical ∈ run.order
  unsearched : run.passes = 0 ↔ goal.canonical ∈ run.order.take run.initial
  last : run.found = true → run.passes ≠ 0 → run.order.getLast? = some goal.canonical

section Chain

variable {premises assumptions : List Formula} {goal : Formula}

theorem given_of_mem_start {fact : Fact}
    (member : fact ∈ (start premises assumptions goal).facts) :
    fact.IsPremise premises ∨ fact.IsAssumption premises assumptions := by
  rw [facts_start] at member
  obtain ⟨done, rest, here, first⟩ := exists_first_entry member
  have absent {p : Formula} (earlier : p ∈ done.map Prod.fst) : p.canonical ≠ fact.key := by
    obtain ⟨entry, isDone, rfl⟩ := List.mem_map.mp earlier
    exact first entry isDone
  rcases entry_cases here with ⟨place, reason, taken⟩ | ⟨assumed, reason, before⟩
  · refine .inl ⟨done.length, reason, by rw [Fact.reference, reason], place, fun p earlier => ?_⟩
    exact absent (taken ▸ earlier)
  · refine .inr ⟨reason, by rw [Fact.reference, reason], assumed, fun p isPremise => ?_⟩
    exact absent (before.subset isPremise)

variable (premises assumptions goal)
variable (maxPasses : Int)

/-- The texts of the facts at the start are the first ones on record. -/
theorem take_order : (chain premises assumptions goal maxPasses).order.take
    (chain premises assumptions goal maxPasses).initial =
      (start premises assumptions goal).order := by
  have starts := start_prefix_chain premises assumptions goal maxPasses
  rw [initial_chain, order, ← List.map_take, ← List.prefix_iff_eq_take.mp starts, order]

/-- What was not given was inferred from facts that are on record. -/
theorem start_or_inferred : ∀ fact ∈ (chain premises assumptions goal maxPasses).facts,
    fact ∈ (start premises assumptions goal).facts ∨
      fact.InferredFrom (chain premises assumptions goal maxPasses).facts := by
  refine search_induction (Q := fun run => ∀ fact ∈ run.facts,
    fact ∈ (start premises assumptions goal).facts ∨ fact.InferredFrom run.facts)
    ?_ (fun _ _ kept => kept) (fun fact given => .inl given) _
  intro old run c known candidate _ accounted fact member
  have grows := (run.facts_prefix_add c.formula (.inference c.rule c.sources)).subset
  rcases mem_of_mem_add member with before | new
  · exact (accounted fact before).imp_right fun inferred => inferred.mono grows
  · obtain ⟨cited, isKnown, sources, size, other⟩ := Candidate.exists_cited candidate
    have reason : fact.reason = .inference c.rule c.sources := (Prod.mk.inj new).2
    have inferred : fact.InferredFrom old := ⟨cited, isKnown, size, c.rule, other, sources ▸ reason⟩
    exact .inr (inferred.mono (List.Subset.trans known grows))

/-- The facts from the start are those at the first places. -/
theorem mem_start_iff {i : Nat} {fact : Fact}
    (here : (chain premises assumptions goal maxPasses).facts[i]? = some fact) :
    fact ∈ (start premises assumptions goal).facts ↔
      i < (chain premises assumptions goal maxPasses).initial := by
  have numbered := (Indexed.chain premises assumptions goal maxPasses).numbered
  rw [initial_chain]
  obtain ⟨later, split⟩ := start_prefix_chain premises assumptions goal maxPasses
  constructor
  · intro member
    obtain ⟨j, place⟩ := List.mem_iff_getElem?.mp member
    have before := (List.getElem?_eq_some_iff.mp place).1
    rw [← List.getElem?_append_left before, split] at place
    have same := (numbered j fact place).symm.trans (numbered i fact here)
    omega
  · intro before
    rw [← split, List.getElem?_append_left before] at here
    exact List.mem_of_getElem? here

theorem passes_le_search (run : Run) (n : Nat) : run.passes ≤ (run.search goal n).passes := by
  induction n generalizing run with
  | zero => exact Nat.le_refl _
  | succ n ih =>
    have next : run.passes ≤ (run.pass goal).1.passes := Nat.le_succ _
    rcases run.search_cases goal with ⟨_, same⟩ | ⟨_, _, stopped⟩ | ⟨_, _, onward⟩
    · exact (same _).symm ▸ Nat.le_refl _
    · exact (stopped n).symm ▸ next
    · exact (onward n).symm ▸ Nat.le_trans next (ih _)

theorem bound_pos : 0 < bound maxPasses := by
  unfold bound defaultBound
  split <;> omega

/-- A search makes no pass only if its goal was given. -/
theorem passes_chain_eq_zero_iff : (chain premises assumptions goal maxPasses).passes = 0 ↔
    (start premises assumptions goal).found = true := by
  constructor
  · intro none
    obtain ⟨n, bound⟩ := Nat.exists_eq_add_one.mpr (bound_pos maxPasses)
    rw [chain, bound] at none
    have first : ((start premises assumptions goal).pass goal).1.passes = 1 := by simp [pass]
    rcases (start premises assumptions goal).search_cases goal with
      ⟨found, _⟩ | ⟨_, _, stopped⟩ | ⟨_, _, onward⟩
    · exact found
    · rw [stopped] at none
      omega
    · rw [onward] at none
      have later := passes_le_search goal ((start premises assumptions goal).pass goal).1 n
      omega
  · intro found
    rw [chain_of_found found, passes_start]

theorem wellFormed_chain : (chain premises assumptions goal maxPasses).WellFormed
    premises assumptions goal where
  distinct := (Indexed.chain premises assumptions goal maxPasses).distinct
  keys key := by rw [order, mem_keys_iff, isSome_find?]
  lookup key fact here := by
    have indexed := Indexed.chain premises assumptions goal maxPasses
    have member := List.mem_of_find?_eq_some here
    have same : fact.key = key := by simpa using List.find?_some here
    obtain ⟨i, place⟩ := List.mem_iff_getElem?.mp member
    refine ⟨fact.key_eq.symm.trans same, ?_, ?_⟩
    · rw [indexed.numbered i fact place]
      exact Nat.succ_pos i
    · rw [order, List.getElem?_map, indexed.getElem?_seq member, Option.map_some, same]
  initial_le := by
    rw [initial_chain]
    exact (start_prefix_chain premises assumptions goal maxPasses).length_le
  given i fact here before :=
    given_of_mem_start ((mem_start_iff premises assumptions goal maxPasses here).mpr before)
  inferred i fact here after := by
    have member := List.mem_of_getElem? here
    have late : fact ∉ (start premises assumptions goal).facts := fun given =>
      absurd ((mem_start_iff premises assumptions goal maxPasses here).mp given) (by omega)
    have inferred :=
      (start_or_inferred premises assumptions goal maxPasses fact member).resolve_left late
    exact inferred.exists_cites (.chain premises assumptions goal maxPasses) member
  recorded f given := by
    rw [take_order, order, mem_keys_iff]
    exact exists_key_start goal given
  target := (records_chain premises assumptions goal maxPasses).goal
  found := by
    rw [order, mem_keys_iff]
    exact (records_chain premises assumptions goal maxPasses).found
  unsearched := by
    have records : Records goal (fun _ => True) (start premises assumptions goal) :=
      .start (fun _ _ => trivial) (fun _ _ => trivial)
    rw [take_order, order, mem_keys_iff, passes_chain_eq_zero_iff]
    exact records.found
  last found passes := by
    have unfound : (start premises assumptions goal).found = false := by
      rw [← Bool.not_eq_true, ← passes_chain_eq_zero_iff premises assumptions goal maxPasses]
      exact passes
    obtain ⟨last, atEnd, key⟩ := last_of_found unfound found
    rw [order, List.getLast?_map, atEnd, Option.map_some, key,
      (records_chain premises assumptions goal maxPasses).goal]

theorem justification_of_mem_chain {fact : Fact}
    (member : fact ∈ (chain premises assumptions goal maxPasses).facts) :
    (Step.ofFact fact).justification = fact.justification := by
  rcases start_or_inferred premises assumptions goal maxPasses fact member with given | inferred
  · rcases given_of_mem_start given with premise | assumption
    · exact premise.justification
    · exact assumption.justification
  · exact inferred.justification

end Chain

end Run

/-- A search leaves a well-formed record, whatever its bound, and the lines made from its facts
give the justifications of the facts. -/
theorem chain_leaves_wellFormed_record (premises assumptions : List Formula) (goal : Formula)
    (maxPasses : Int) :
    let run := chain premises assumptions goal maxPasses
    run.WellFormed premises assumptions goal ∧
    (∀ fact ∈ run.facts, (Step.ofFact fact).justification = fact.justification) ∧
    (run.found = true →
      (Proof.stepsOf run).map Step.justification = run.facts.map Fact.justification) := by
  intro run
  have agree : ∀ fact ∈ run.facts, (Step.ofFact fact).justification = fact.justification :=
    fun _ member => Run.justification_of_mem_chain premises assumptions goal maxPasses member
  refine ⟨Run.wellFormed_chain premises assumptions goal maxPasses, agree, fun found => ?_⟩
  rw [Proof.stepsOf_chain found, List.map_map]
  exact List.map_congr_left agree

/-- A premise that stands twice keeps its first number, and the goal is the last fact. -/
example :
    (chain [.var "P", .var "P", .implies (.var "P") (.var "Q")] [] (.var "Q") 0).facts.map
      Fact.justification = ["Premise 1", "Premise 3", "Modus Ponens (2, 1)"] := by
  decide +kernel

end Turnstile
