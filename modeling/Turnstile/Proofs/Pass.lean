import Turnstile.Proofs.Recording

/-! The rules have instances in the facts that are known when a pass begins. The pass goes
through them fact by fact and rule by rule, records those whose results are new, and stops with
the goal. Nothing is claimed of states that no search reaches. -/
namespace Turnstile

/-- The instance of a rule in facts, which are cited in this order, the major fact first. -/
structure Instance where
  rule : Rule
  cited : List Fact
  formula : Formula

namespace Instance

def key (i : Instance) : Text :=
  i.formula.canonical

def toFact (i : Instance) (seq : Nat) : Fact :=
  { seq, formula := i.formula, reason := .inference i.rule (i.cited.map Fact.seq) }

def toCandidate (i : Instance) : Candidate :=
  ⟨i.formula, i.rule, i.cited.map Fact.seq⟩

def simplificationLeft (f : Fact) : Option Instance :=
  match f.formula with
  | .and l _ => some ⟨.simplification, [f], l⟩
  | _ => none

def simplificationRight (f : Fact) : Option Instance :=
  match f.formula with
  | .and _ r => some ⟨.simplification, [f], r⟩
  | _ => none

def modusPonens (f g : Fact) : Option Instance :=
  match f.formula with
  | .implies l r => if g.key = l.canonical then some ⟨.modusPonens, [f, g], r⟩ else none
  | _ => none

def modusTollens (f g : Fact) : Option Instance :=
  match f.formula with
  | .implies l r =>
    if g.key = (Formula.not r).canonical then some ⟨.modusTollens, [f, g], .not l⟩ else none
  | _ => none

def hypotheticalSyllogism (f g : Fact) : Option Instance :=
  match f.formula, g.formula with
  | .implies l r, .implies l' r' =>
    if l'.canonical = r.canonical then some ⟨.hypotheticalSyllogism, [f, g], .implies l r'⟩
    else none
  | _, _ => none

def disjunctiveSyllogismLeft (f g : Fact) : Option Instance :=
  match f.formula with
  | .or l r =>
    if g.key = (Formula.not l).canonical then some ⟨.disjunctiveSyllogism, [f, g], r⟩ else none
  | _ => none

def disjunctiveSyllogismRight (f g : Fact) : Option Instance :=
  match f.formula with
  | .or l r =>
    if g.key = (Formula.not r).canonical then some ⟨.disjunctiveSyllogism, [f, g], l⟩ else none
  | _ => none

def conjunction (goal : Formula) (f g : Fact) : Option Instance :=
  match goal with
  | .and l r =>
    if f.key = l.canonical ∧ g.key = r.canonical then some ⟨.conjunction, [f, g], goal⟩ else none
  | _ => none

def ofOne (goal : Formula) (f : Fact) : List Instance :=
  [simplificationLeft f, simplificationRight f, conjunction goal f f].flatMap Option.toList

/-- The instances in two facts, of which the first is the major one. The operands of the goal may
come in any order. -/
def ofTwo (goal : Formula) (f g : Fact) : List Instance :=
  [modusPonens f g, modusTollens f g, hypotheticalSyllogism f g, disjunctiveSyllogismLeft f g,
    disjunctiveSyllogismRight f g,
    (conjunction goal f g).or (conjunction goal g f)].flatMap Option.toList

/-- All instances in some facts, in the order in which a pass comes to them. -/
def all (goal : Formula) (facts : List Fact) : List Instance :=
  facts.flatMap fun f =>
    ofOne goal f ++ (facts.filter (·.key ≠ f.key)).flatMap fun g => ofTwo goal f g

theorem map_conjunction_self (goal : Formula) (f : Fact) :
    (conjunction goal f f).toList.map toCandidate = Candidate.doubleGoal goal f := by
  cases goal with
  | and l r =>
    simp only [conjunction, Candidate.doubleGoal, eq_comm (a := f.key)]
    split <;> rfl
  | _ => rfl

theorem map_conjunction (goal : Formula) (f g : Fact) :
    ((conjunction goal f g).or (conjunction goal g f)).toList.map toCandidate =
      Candidate.joinGoal goal f g := by
  cases goal with
  | and l r =>
    simp only [conjunction, Candidate.joinGoal, and_comm (a := g.key = l.canonical)]
    split
    · rfl
    · split <;> rfl
  | _ => rfl

theorem map_ofOne (goal : Formula) (f : Fact) :
    (ofOne goal f).map toCandidate = Candidate.simplify f ++ Candidate.doubleGoal goal f := by
  rw [← map_conjunction_self]
  unfold ofOne simplificationLeft simplificationRight Candidate.simplify
  cases f.formula <;> simp [toCandidate]

theorem map_ofTwo (goal : Formula) (f g : Fact) :
    (ofTwo goal f g).map toCandidate = Candidate.combine f g ++ Candidate.joinGoal goal f g := by
  rw [← map_conjunction]
  unfold ofTwo modusPonens modusTollens hypotheticalSyllogism disjunctiveSyllogismLeft
    disjunctiveSyllogismRight Candidate.combine
  cases f.formula with
  | implies l r =>
    cases g.formula <;>
      simp [toCandidate, apply_ite Option.toList, apply_ite (List.map toCandidate)]
  | or l r => simp [toCandidate, apply_ite Option.toList, apply_ite (List.map toCandidate)]
  | var | not | and => simp

theorem map_all (goal : Formula) (facts : List Fact) :
    (all goal facts).map toCandidate = Candidate.all goal facts := by
  simp only [all, Candidate.all, List.map_flatMap, List.map_append, map_ofOne, map_ofTwo,
    List.append_assoc]

theorem cited_of_conjunction {goal : Formula} {f g : Fact} {i : Instance}
    (some : conjunction goal f g = some i) : i.cited = [f, g] := by
  cases goal with
  | and l r => grind [conjunction]
  | _ => simp [conjunction] at some

theorem cited_of_mem_ofOne {goal : Formula} {f : Fact} {i : Instance}
    (member : i ∈ ofOne goal f) : i.cited ⊆ [f] := by
  simp only [ofOne, List.flatMap_cons, List.flatMap_nil, List.append_nil, List.mem_append,
    Option.mem_toList] at member
  rcases member with left | right | double
  · grind [simplificationLeft]
  · grind [simplificationRight]
  · simp [cited_of_conjunction double]

theorem cited_of_mem_ofTwo {goal : Formula} {f g : Fact} {i : Instance}
    (member : i ∈ ofTwo goal f g) : i.cited ⊆ [f, g] := by
  simp only [ofTwo, List.flatMap_cons, List.flatMap_nil, List.append_nil, List.mem_append,
    Option.mem_toList, Option.or_eq_some_iff] at member
  rcases member with ponens | tollens | syllogism | left | right | first | ⟨_, second⟩
  · grind [modusPonens]
  · grind [modusTollens]
  · grind [hypotheticalSyllogism]
  · grind [disjunctiveSyllogismLeft]
  · grind [disjunctiveSyllogismRight]
  · simp [cited_of_conjunction first]
  · simp [cited_of_conjunction second]

theorem cited_subset {goal : Formula} {facts : List Fact} {i : Instance}
    (member : i ∈ all goal facts) : i.cited ⊆ facts := by
  obtain ⟨f, known, member⟩ := List.mem_flatMap.mp member
  rcases List.mem_append.mp member with alone | paired
  · exact List.Subset.trans (cited_of_mem_ofOne alone) (by simpa using known)
  · obtain ⟨g, other, paired⟩ := List.mem_flatMap.mp paired
    exact List.Subset.trans (cited_of_mem_ofTwo paired)
      (by simp [known, (List.mem_filter.mp other).1])

/-- The instances with a result that is neither known nor the result of an earlier one. -/
def fresh (known : List Text) (listed : List Instance) : List Instance :=
  (listed.zipIdx.filter fun p =>
    p.1.key ∉ known ∧ p.1.key ∉ (listed.take p.2).map key).map Prod.fst

def upTo (goal : Text) (listed : List Instance) : List Instance :=
  listed.take (listed.findIdx (fun i => i.key == goal) + 1)

def record (n : Nat) (listed : List Instance) : List Fact :=
  (listed.zipIdx n).map fun p => p.1.toFact p.2

theorem fresh_cons (known : List Text) (i : Instance) (listed : List Instance) :
    fresh known (i :: listed) =
      if i.key ∈ known then fresh (i.key :: known) listed
      else i :: fresh (i.key :: known) listed := by
  have later : ((listed.zipIdx 1).filter fun p =>
      p.1.key ∉ known ∧ p.1.key ∉ ((i :: listed).take p.2).map key).map Prod.fst =
      fresh (i.key :: known) listed := by
    rw [List.zipIdx_succ, List.filter_map, List.map_map]
    unfold fresh
    congr 1
    apply List.filter_congr
    intro p _
    simp [Bool.and_assoc, Bool.and_left_comm]
  rw [fresh, List.zipIdx_cons, List.filter_cons, apply_ite (List.map Prod.fst), List.map_cons,
    later]
  by_cases seen : i.key ∈ known <;> simp [seen]

theorem fresh_congr {known known' : List Text} (same : ∀ k, k ∈ known ↔ k ∈ known')
    (listed : List Instance) : fresh known listed = fresh known' listed := by
  simp only [fresh, same]

theorem exists_mem_fresh_iff {known : List Text} {listed : List Instance} {k : Text} :
    (∃ i ∈ fresh known listed, i.key = k) ↔ k ∉ known ∧ ∃ i ∈ listed, i.key = k := by
  induction listed generalizing known with
  | nil => simp [fresh]
  | cons i listed ih =>
    rw [fresh_cons]
    by_cases isKey : i.key = k
    · by_cases seen : i.key ∈ known <;> simp_all
    · by_cases seen : i.key ∈ known <;> simp_all [eq_comm]

theorem upTo_cons (goal : Text) (i : Instance) (listed : List Instance) :
    upTo goal (i :: listed) = if i.key = goal then [i] else i :: upTo goal listed := by
  by_cases isGoal : i.key = goal
  · simp [upTo, List.findIdx_cons, isGoal]
  · have other : (i.key == goal) = false := by simpa using isGoal
    simp [upTo, List.findIdx_cons, isGoal, other]

theorem record_cons (n : Nat) (i : Instance) (listed : List Instance) :
    record n (i :: listed) = i.toFact n :: record (n + 1) listed := by
  simp [record, List.zipIdx_cons]

@[simp]
theorem length_record (n : Nat) (listed : List Instance) :
    (record n listed).length = listed.length := by
  simp [record]

end Instance

namespace Run

/-- Recording goes through the instances, takes the new ones, and stops with the goal. -/
theorem extend_instances {run : Run} (unfound : run.found = false) (listed : List Instance) :
    run.extend (listed.map Instance.toCandidate) = ({ run with
      facts := run.facts ++ Instance.record (run.facts.length + 1)
        (Instance.upTo run.goal (Instance.fresh (run.facts.map Fact.key) listed))
      found := (Instance.fresh (run.facts.map Fact.key) listed).any (·.key == run.goal) },
      !(Instance.upTo run.goal (Instance.fresh (run.facts.map Fact.key) listed)).isEmpty) := by
  induction listed generalizing run with
  | nil => simp [extend, Instance.fresh, Instance.upTo, Instance.record, ← unfound]
  | cons i listed ih =>
    rw [List.map_cons, Instance.fresh_cons]
    by_cases seen : i.key ∈ run.facts.map Fact.key
    · have same : Instance.fresh (i.key :: run.facts.map Fact.key) listed =
          Instance.fresh (run.facts.map Fact.key) listed :=
        Instance.fresh_congr (by simpa using seen) listed
      rw [if_pos seen, same, extend_cons_of_known (mem_keys_iff.mp seen)]
      exact ih unfound
    · let c := i.toCandidate
      have unknown : ¬∃ fact ∈ run.facts, fact.key = c.formula.canonical :=
        mt mem_keys_iff.mpr seen
      have added : run.add c.formula (.inference c.rule c.sources) = { run with
          facts := run.facts ++ [i.toFact (run.facts.length + 1)]
          found := i.key == run.goal } := by
        rw [add_of_new _ unknown, unfound, Bool.false_or]
        rfl
      rw [extend_cons_of_new unfound unknown, added, if_neg seen, Instance.upTo_cons,
        List.any_cons]
      by_cases isGoal : i.key = run.goal
      · rw [extend_of_found (by simpa using isGoal), if_pos isGoal]
        simp [isGoal, Instance.record]
      · have other : (i.key == run.goal) = false := by simpa using isGoal
        have same : Instance.fresh (i.key :: run.facts.map Fact.key) listed = Instance.fresh
            ((run.facts ++ [i.toFact (run.facts.length + 1)]).map Fact.key) listed :=
          Instance.fresh_congr (by simp [Instance.toFact, Instance.key, or_comm]) listed
        rw [ih other, if_neg isGoal, Instance.record_cons, other, Bool.false_or, same]
        simp

inductive Reachable (premises assumptions : List Formula) (goal : Formula) : Run → Prop where
  | start : Reachable premises assumptions goal (start premises assumptions goal)
  | pass (before : Reachable premises assumptions goal run) (unfound : run.found = false) :
      Reachable premises assumptions goal (run.pass goal).1

theorem Indexed.pass {run : Run} (indexed : Indexed run) (goal : Formula) :
    Indexed (run.pass goal).1 := by
  have extended : Indexed (run.extend (Candidate.all goal run.facts)).1 :=
    extend_induction (fun _ _ _ _ _ _ indexed => indexed.add _ _) (List.Subset.refl _)
      (List.Subset.refl run.facts) indexed
  exact ⟨extended.distinct, extended.numbered⟩

/-- An instance is recorded with the texts of the facts that it cites. -/
theorem Indexed.sourceKeys_toFact {run : Run} (indexed : Indexed run) {i : Instance}
    (known : i.cited ⊆ run.facts) (n : Nat) :
    run.sourceKeys (i.toFact n) = i.cited.map Fact.key :=
  indexed.sourceKeys_eq known rfl

namespace Reachable

variable {premises assumptions : List Formula} {goal : Formula} {run : Run}
variable (reachable : Reachable premises assumptions goal run)

include reachable

theorem indexed : Indexed run := by
  induction reachable with
  | start => exact .start premises assumptions goal
  | pass _ _ ih => exact ih.pass goal

theorem records : Records goal (fun _ => True) run := by
  induction reachable with
  | start => exact .start (fun _ _ => trivial) fun _ _ => trivial
  | pass _ _ ih => exact ih.pass fun _ _ _ _ => trivial

theorem search (n : Nat) : Reachable premises assumptions goal (run.search goal n) := by
  induction n generalizing run with
  | zero => exact reachable
  | succ n ih =>
    rcases run.search_cases goal with ⟨_, same⟩ | ⟨unfound, _, stopped⟩ | ⟨unfound, _, onward⟩
    · exact (same _).symm ▸ reachable
    · exact (stopped n).symm ▸ reachable.pass unfound
    · exact (onward n).symm ▸ ih (reachable.pass unfound)

theorem pass_eq (unfound : run.found = false) : run.pass goal = ({ run with
    facts := run.facts ++ Instance.record (run.facts.length + 1) (Instance.upTo goal.canonical
      (Instance.fresh (run.facts.map Fact.key) (Instance.all goal run.facts)))
    found := (Instance.all goal run.facts).any (·.key == goal.canonical)
    passes := run.passes + 1 },
    !(Instance.upTo goal.canonical
      (Instance.fresh (run.facts.map Fact.key) (Instance.all goal run.facts))).isEmpty) := by
  have records := reachable.records
  have notKnown : goal.canonical ∉ run.facts.map Fact.key := by
    rw [mem_keys_iff, ← records.found, unfound]
    exact Bool.false_ne_true
  have reached : (Instance.fresh (run.facts.map Fact.key) (Instance.all goal run.facts)).any
      (·.key == goal.canonical) = (Instance.all goal run.facts).any (·.key == goal.canonical) := by
    rw [Bool.eq_iff_iff]
    simp only [List.any_eq_true, beq_iff_eq, Instance.exists_mem_fresh_iff]
    exact and_iff_right notKnown
  rw [Run.pass, ← Instance.map_all, extend_instances unfound, records.goal, reached]

end Reachable

end Run

/-- A pass records the instances of the rules in the facts that it knows, in their order, as far
as their results are neither known nor those of earlier instances. It stops with the goal, cites
only facts that it knew, and changes none of them. It tells whether something was recorded, and
the search goes on if and only if it was. -/
theorem pass_records_first_instances (premises assumptions : List Formula) (goal : Formula)
    (run : Run) (reachable : run.Reachable premises assumptions goal)
    (unfound : run.found = false) :
    let listed := Instance.all goal run.facts
    let recorded := Instance.upTo goal.canonical (Instance.fresh (run.facts.map Fact.key) listed)
    run.pass goal = ({ run with
      facts := run.facts ++ Instance.record (run.facts.length + 1) recorded
      found := listed.any (·.key == goal.canonical)
      passes := run.passes + 1 }, !recorded.isEmpty) ∧
    (∀ i ∈ listed, i.cited ⊆ run.facts ∧
      ∀ n, (run.pass goal).1.sourceKeys (i.toFact n) = i.cited.map Fact.key) ∧
    ∀ n, run.search goal (n + 1) =
      if (run.pass goal).2 then (run.pass goal).1.search goal n else (run.pass goal).1 := by
  intro listed recorded
  refine ⟨reachable.pass_eq unfound, fun i member => ?_, fun n => ?_⟩
  · have known := Instance.cited_subset member
    refine ⟨known, (reachable.indexed.pass goal).sourceKeys_toFact ?_⟩
    exact List.Subset.trans known (run.facts_prefix_pass goal).subset
  · rcases run.search_cases goal with ⟨found, _⟩ | ⟨_, nothing, stopped⟩ | ⟨_, added, onward⟩
    · rw [unfound] at found
      contradiction
    · rw [stopped, nothing]
      rfl
    · rw [onward, added]
      rfl

/-- From `A -> P & P`, `A`, `P -> Q` and `A -> P` the first pass records `P & P`, `P` and `A -> Q`,
of which the last two would lead to `Q` in two ways. The second pass takes the one that comes
first, after several instances with known results, and stops. -/
theorem pass_records_first_instances_of_detour :
    let a : Formula := .var "A"
    let p : Formula := .var "P"
    let q : Formula := .var "Q"
    let premises := [Formula.implies a (.and p p), a, .implies p q, .implies a p]
    let run := (Run.start premises [] q).search q 1
    let listed := Instance.all q run.facts
    let recorded := Instance.upTo q.canonical (Instance.fresh (run.facts.map Fact.key) listed)
    run.found = false ∧ listed.length = 7 ∧
    recorded.map (fun i => (i.rule, i.cited.map Fact.seq, i.formula)) =
      [(.modusPonens, [3, 6], q)] ∧
    (run.pass q).1.facts = run.facts ++ Instance.record 8 recorded ∧
    (run.pass q).1.found = true ∧ (run.pass q).2 = true := by
  intro a p q premises run listed recorded
  have reachable : run.Reachable premises [] q := Run.Reachable.start.search 1
  have unfound : run.found = false := by decide +kernel
  have length : run.facts.length = 7 := by decide +kernel
  have pass : run.pass q = ({ run with
      facts := run.facts ++ Instance.record (run.facts.length + 1) recorded
      found := listed.any (·.key == q.canonical)
      passes := run.passes + 1 }, !recorded.isEmpty) :=
    (pass_records_first_instances premises [] q run reachable unfound).1
  rw [length] at pass
  refine ⟨unfound, by decide +kernel, by decide +kernel, by rw [pass], ?_, ?_⟩
  · rw [pass]
    decide +kernel
  · rw [pass]
    decide +kernel

end Turnstile
