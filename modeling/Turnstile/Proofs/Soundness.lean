import Turnstile.Deduction.Proof
import Turnstile.Proofs.Entailment
import Turnstile.Proofs.RoundTrip

/-! Facts are matched by canonical text. As long as all names can be written, the facts that
match are the formulas that a rule of inference asks for, so each candidate of a pass is
inferred from facts that it cites. What the rules keep is kept by a whole search; that searches
find all that follows is not claimed. -/
namespace Turnstile

/-- The rules of inference, with the formulas that each needs in the order in which they are
cited. Only the goal is introduced as a conjunction. -/
inductive Infers (goal : Formula) : Rule → List Formula → Formula → Prop where
  | simplifyLeft : Infers goal .simplification [.and l r] l
  | simplifyRight : Infers goal .simplification [.and l r] r
  | modusPonens : Infers goal .modusPonens [.implies l r, l] r
  | modusTollens : Infers goal .modusTollens [.implies l r, .not r] (.not l)
  | hypotheticalSyllogism :
      Infers goal .hypotheticalSyllogism [.implies l m, .implies m r] (.implies l r)
  | disjunctiveSyllogismLeft : Infers goal .disjunctiveSyllogism [.or l r, .not l] r
  | disjunctiveSyllogismRight : Infers goal .disjunctiveSyllogism [.or l r, .not r] l
  | conjunction (whole : goal = .and l r) : Infers goal .conjunction [l, r] goal

theorem Infers.eval {v : Text → Bool} (rule : Infers goal r fs f) (holds : Satisfies v fs) :
    f.eval v = true := by
  cases rule <;>
    simp only [Satisfies, List.forall_mem_cons, List.not_mem_nil, Formula.eval, Bool.and_eq_true,
      Bool.or_eq_true, Bool.not_eq_true'] at holds ⊢ <;>
    grind [Formula.eval]

theorem Infers.named (rule : Infers goal r fs f) (named : ∀ g ∈ fs, g.Named) : f.Named := by
  cases rule <;> simp_all

/-- Lists of formulas with proper names are told apart by their texts. -/
theorem Formula.eq_of_map_canonical {fs gs : List Formula} (first : ∀ f ∈ fs, f.Named)
    (second : ∀ g ∈ gs, g.Named) (same : fs.map canonical = gs.map canonical) : fs = gs := by
  induction fs generalizing gs with
  | nil => exact (List.map_eq_nil_iff.mp same.symm).symm
  | cons f fs ih =>
    obtain ⟨g, gs, rfl, head, tail⟩ := List.map_eq_cons_iff.mp same.symm
    rw [List.forall_mem_cons] at first second
    rw [first.1.canonical_injective second.1 head.symm, ih first.2 second.2 tail.symm]

theorem Fact.map_key (facts : List Fact) :
    facts.map Fact.key = (facts.map Fact.formula).map Formula.canonical := by
  rw [List.map_map]
  exact List.map_congr_left fun fact _ => fact.key_eq

namespace Candidate

def Justified (goal : Formula) (known : List Fact) (c : Candidate) : Prop :=
  ∃ cited : List Fact, cited ⊆ known ∧ c.sources = cited.map Fact.seq ∧
    Infers goal c.rule (cited.map Fact.formula) c.formula

/-- What the rules yield from known facts, which are matched by their texts. -/
inductive Yields (goal : Formula) (known : List Fact) : Candidate → Prop where
  | simplifyLeft {f : Fact} (major : f ∈ known) (shape : f.formula = .and l r) :
      Yields goal known ⟨l, .simplification, [f.seq]⟩
  | simplifyRight {f : Fact} (major : f ∈ known) (shape : f.formula = .and l r) :
      Yields goal known ⟨r, .simplification, [f.seq]⟩
  | modusPonens {f g : Fact} (major : f ∈ known) (minor : g ∈ known)
      (shape : f.formula = .implies l r) (same : g.key = l.canonical) :
      Yields goal known ⟨r, .modusPonens, [f.seq, g.seq]⟩
  | modusTollens {f g : Fact} (major : f ∈ known) (minor : g ∈ known)
      (shape : f.formula = .implies l r) (same : g.key = (Formula.not r).canonical) :
      Yields goal known ⟨.not l, .modusTollens, [f.seq, g.seq]⟩
  | hypotheticalSyllogism {f g : Fact} (major : f ∈ known) (minor : g ∈ known)
      (shape : f.formula = .implies l r) (minorShape : g.formula = .implies l' r')
      (same : l'.canonical = r.canonical) :
      Yields goal known ⟨.implies l r', .hypotheticalSyllogism, [f.seq, g.seq]⟩
  | disjunctiveSyllogismLeft {f g : Fact} (major : f ∈ known) (minor : g ∈ known)
      (shape : f.formula = .or l r) (same : g.key = (Formula.not l).canonical) :
      Yields goal known ⟨r, .disjunctiveSyllogism, [f.seq, g.seq]⟩
  | disjunctiveSyllogismRight {f g : Fact} (major : f ∈ known) (minor : g ∈ known)
      (shape : f.formula = .or l r) (same : g.key = (Formula.not r).canonical) :
      Yields goal known ⟨l, .disjunctiveSyllogism, [f.seq, g.seq]⟩
  | conjunction {f g : Fact} (first : f ∈ known) (second : g ∈ known) (whole : goal = .and l r)
      (left : f.key = l.canonical) (right : g.key = r.canonical) :
      Yields goal known ⟨goal, .conjunction, [f.seq, g.seq]⟩

theorem yields_of_mem_simplify {f : Fact} (known : f ∈ facts) (member : c ∈ simplify f) :
    Yields goal facts c := by
  unfold simplify at member
  split at member
  next l r shape =>
    simp only [List.mem_cons, List.not_mem_nil, or_false] at member
    rcases member with rfl | rfl
    · exact .simplifyLeft known shape
    · exact .simplifyRight known shape
  next => simp at member

theorem yields_of_mem_doubleGoal {f : Fact} (known : f ∈ facts) (member : c ∈ doubleGoal goal f) :
    Yields goal facts c := by
  unfold doubleGoal at member
  split at member
  next l r =>
    obtain ⟨⟨left, right⟩, member⟩ := List.mem_ite_nil_right.mp member
    obtain rfl := List.mem_singleton.mp member
    exact .conjunction known known rfl left.symm right.symm
  next => simp at member

theorem yields_of_mem_combine {f g : Fact} (major : f ∈ facts) (minor : g ∈ facts)
    (member : c ∈ combine f g) : Yields goal facts c := by
  unfold combine at member
  split at member
  next l r shape =>
    simp only [List.mem_append, List.mem_ite_nil_right, List.mem_singleton] at member
    rcases member with (⟨same, rfl⟩ | ⟨same, rfl⟩) | member
    · exact .modusPonens major minor shape same
    · exact .modusTollens major minor shape same
    · split at member
      next l' r' minorShape =>
        simp only [List.mem_ite_nil_right, List.mem_singleton] at member
        obtain ⟨same, rfl⟩ := member
        exact .hypotheticalSyllogism major minor shape minorShape same
      next => simp at member
  next l r shape =>
    simp only [List.mem_append, List.mem_ite_nil_right, List.mem_singleton] at member
    rcases member with ⟨same, rfl⟩ | ⟨same, rfl⟩
    · exact .disjunctiveSyllogismLeft major minor shape same
    · exact .disjunctiveSyllogismRight major minor shape same
  next => simp at member

theorem yields_of_mem_joinGoal {f g : Fact} (first : f ∈ facts) (second : g ∈ facts)
    (member : c ∈ joinGoal goal f g) : Yields goal facts c := by
  unfold joinGoal at member
  split at member
  next l r =>
    split at member
    next same =>
      obtain rfl := List.mem_singleton.mp member
      exact .conjunction first second rfl same.1 same.2
    next =>
      obtain ⟨same, member⟩ := List.mem_ite_nil_right.mp member
      obtain rfl := List.mem_singleton.mp member
      exact .conjunction second first rfl same.2 same.1
  next => simp at member

/-- Everything that a pass considers comes from what it knows by one of the rules. -/
theorem yields_of_mem_all (member : c ∈ all goal facts) : Yields goal facts c := by
  obtain ⟨f, known, member⟩ := List.mem_flatMap.mp member
  simp only [List.mem_append, List.mem_flatMap] at member
  rcases member with (member | member) | ⟨g, other, member | member⟩
  · exact yields_of_mem_simplify known member
  · exact yields_of_mem_doubleGoal known member
  · exact yields_of_mem_combine known (List.mem_filter.mp other).1 member
  · exact yields_of_mem_joinGoal known (List.mem_filter.mp other).1 member

/-- What the rules yield is inferred from formulas that have the texts of the cited facts. With
proper names these formulas have proper names too. -/
theorem Yields.exists_infers (yields : Yields goal facts c) :
    ∃ cited fs, cited ⊆ facts ∧ c.sources = cited.map Fact.seq ∧
      cited.map Fact.key = fs.map Formula.canonical ∧ Infers goal c.rule fs c.formula ∧
      ((∀ fact ∈ cited, fact.formula.Named) → (c.formula = goal → goal.Named) →
        ∀ f ∈ fs, f.Named) := by
  cases yields with
  | @simplifyLeft l r f major shape =>
    exact ⟨[f], [.and l r], by simpa, rfl, by simp [f.key_eq, shape], .simplifyLeft,
      by simp +contextual [shape]⟩
  | @simplifyRight l r f major shape =>
    exact ⟨[f], [.and l r], by simpa, rfl, by simp [f.key_eq, shape], .simplifyRight,
      by simp +contextual [shape]⟩
  | @modusPonens l r f g major minor shape same =>
    exact ⟨[f, g], [.implies l r, l], by simp [major, minor], rfl, by simp [f.key_eq, shape, same],
      .modusPonens, by simp +contextual [shape]⟩
  | @modusTollens l r f g major minor shape same =>
    exact ⟨[f, g], [.implies l r, .not r], by simp [major, minor], rfl,
      by simp [f.key_eq, shape, same], .modusTollens, by simp +contextual [shape]⟩
  | @hypotheticalSyllogism l r l' r' f g major minor shape minorShape same =>
    exact ⟨[f, g], [.implies l r, .implies r r'], by simp [major, minor], rfl,
      by simp [f.key_eq, g.key_eq, shape, minorShape, Formula.canonical_implies, same],
      .hypotheticalSyllogism, by simp +contextual [shape, minorShape]⟩
  | @disjunctiveSyllogismLeft l r f g major minor shape same =>
    exact ⟨[f, g], [.or l r, .not l], by simp [major, minor], rfl,
      by simp [f.key_eq, shape, same], .disjunctiveSyllogismLeft, by simp +contextual [shape]⟩
  | @disjunctiveSyllogismRight l r f g major minor shape same =>
    exact ⟨[f, g], [.or l r, .not r], by simp [major, minor], rfl,
      by simp [f.key_eq, shape, same], .disjunctiveSyllogismRight, by simp +contextual [shape]⟩
  | @conjunction l r f g first second whole left right =>
    exact ⟨[f, g], [l, r], by simp [first, second], rfl, by simp [left, right],
      .conjunction whole, by simp +contextual [whole]⟩

section Matching

variable {facts : List Fact} (named : ∀ fact ∈ facts, fact.formula.Named)

include named

/-- Facts are matched by canonical text, which tells formulas with proper names apart. -/
theorem formula_eq_of_key {fact : Fact} {f : Formula} (known : fact ∈ facts) (proper : f.Named)
    (same : fact.key = f.canonical) : fact.formula = f :=
  (named fact known).canonical_injective proper (fact.key_eq ▸ same)

theorem Yields.justified (yields : Yields goal facts c)
    (goalNamed : c.formula = goal → goal.Named) : Justified goal facts c := by
  obtain ⟨cited, fs, known, sources, texts, infers, proper⟩ := yields.exists_infers
  have citedNamed : ∀ fact ∈ cited, fact.formula.Named := fun fact h => named fact (known h)
  have formulas : cited.map Fact.formula = fs := by
    apply Formula.eq_of_map_canonical (by simpa using citedNamed) (proper citedNamed goalNamed)
    rw [← texts, Fact.map_key]
  exact ⟨cited, known, sources, formulas ▸ infers⟩

/-- Everything that a pass considers is inferred from what it knows. -/
theorem justified_of_mem_all (goalNamed : goal.Named) (member : c ∈ all goal facts) :
    Justified goal facts c :=
  (yields_of_mem_all member).justified named fun _ => goalNamed

end Matching

end Candidate

namespace Run

theorem isSome_find? {run : Run} {key : Text} :
    (run.find? key).isSome = true ↔ ∃ fact ∈ run.facts, fact.key = key := by
  simp [find?]

/-- Recording a formula that is known changes nothing. -/
theorem record_of_known {run : Run} {f : Formula} (reason : Reason)
    (known : ∃ fact ∈ run.facts, fact.key = f.canonical) :
    run.record f reason = (run, false) := by
  rw [record, if_pos (isSome_find?.mpr known)]

/-- Recording a new formula puts it behind the facts that are known. -/
theorem record_of_new {run : Run} {f : Formula} (reason : Reason)
    (unknown : ¬∃ fact ∈ run.facts, fact.key = f.canonical) :
    run.record f reason = ({ run with
      facts := run.facts ++ [⟨run.facts.length + 1, f, reason, f.canonical, rfl⟩]
      found := run.found || f.canonical == run.goal }, true) := by
  rw [record, if_neg fun known => unknown (isSome_find?.mp known)]

theorem add_of_known {run : Run} {f : Formula} (reason : Reason)
    (known : ∃ fact ∈ run.facts, fact.key = f.canonical) : run.add f reason = run := by
  rw [add, record_of_known reason known]

theorem add_of_new {run : Run} {f : Formula} (reason : Reason)
    (unknown : ¬∃ fact ∈ run.facts, fact.key = f.canonical) :
    run.add f reason = { run with
      facts := run.facts ++ [⟨run.facts.length + 1, f, reason, f.canonical, rfl⟩]
      found := run.found || f.canonical == run.goal } := by
  rw [add, record_of_new reason unknown]

theorem search_of_found {goal : Formula} {run : Run} (found : run.found = true) (n : Nat) :
    run.search goal n = run := by
  cases n with
  | zero => rfl
  | succ n => rw [search, if_pos found]

/-- A search ends with the goal or with a pass that adds nothing, and goes on otherwise. -/
theorem search_cases (goal : Formula) (run : Run) :
    (run.found = true ∧ ∀ n, run.search goal n = run) ∨
    (run.found = false ∧ (run.pass goal).2 = false ∧
      ∀ n, run.search goal (n + 1) = (run.pass goal).1) ∨
    (run.found = false ∧ (run.pass goal).2 = true ∧
      ∀ n, run.search goal (n + 1) = (run.pass goal).1.search goal n) := by
  cases found : run.found with
  | true => exact .inl ⟨rfl, search_of_found found⟩
  | false =>
    cases added : (run.pass goal).2 with
    | false =>
      refine .inr (.inl ⟨rfl, rfl, fun n => ?_⟩)
      simp [search, found, added]
    | true =>
      refine .inr (.inr ⟨rfl, rfl, fun n => ?_⟩)
      simp [search, found, added]

structure Records (target : Formula) (P : Formula → Prop) (run : Run) : Prop where
  goal : run.goal = target.canonical
  found : run.found = true ↔ ∃ fact ∈ run.facts, fact.key = target.canonical
  facts : ∀ fact ∈ run.facts, P fact.formula

namespace Records

variable {target : Formula} {P : Formula → Prop} {run : Run}

theorem add (records : Records target P run) (proper : P f) (reason : Reason) :
    Records target P (run.add f reason) := by
  by_cases known : ∃ fact ∈ run.facts, fact.key = f.canonical
  · rwa [add_of_known reason known]
  · rw [add_of_new reason known]
    refine ⟨records.goal, ?_, ?_⟩
    · simp [records.found, records.goal, or_and_right, exists_or]
    · simpa [or_imp, forall_and, proper] using records.facts

theorem addPremises (records : Records target P run) (proper : ∀ f ∈ fs, P f) (n : Nat) :
    Records target P (run.addPremises n fs) := by
  induction fs generalizing run n with
  | nil => exact records
  | cons f fs ih =>
    obtain ⟨first, proper⟩ := List.forall_mem_cons.mp proper
    exact ih (records.add first _) proper _

theorem addAssumptions (records : Records target P run) (proper : ∀ f ∈ fs, P f) :
    Records target P (run.addAssumptions fs) := by
  induction fs generalizing run with
  | nil => exact records
  | cons f fs ih =>
    obtain ⟨first, proper⟩ := List.forall_mem_cons.mp proper
    exact ih (records.add first _) proper

theorem start (premises : ∀ f ∈ fs, P f) (assumptions : ∀ f ∈ gs, P f) :
    Records target P (Run.start fs gs target) := by
  have empty : Records target P { goal := target.canonical } := ⟨rfl, by simp, by simp⟩
  have full := (empty.addPremises premises 1).addAssumptions assumptions
  exact ⟨full.goal, full.found, full.facts⟩

theorem extend {cs : List Candidate} (records : Records target P run)
    (proper : ∀ c ∈ cs, P c.formula) : Records target P (run.extend cs).1 := by
  induction cs generalizing run with
  | nil => exact records
  | cons c cs ih =>
    obtain ⟨first, proper⟩ := List.forall_mem_cons.mp proper
    rw [Run.extend]
    split
    · exact records
    · exact ih (records.add first _) proper

variable (step : ∀ known : List Fact, (∀ fact ∈ known, P fact.formula) →
  ∀ c ∈ Candidate.all target known, P c.formula)

include step

theorem pass (records : Records target P run) : Records target P (run.pass target).1 := by
  have extended := records.extend (step run.facts records.facts)
  exact ⟨extended.goal, extended.found, extended.facts⟩

theorem search (records : Records target P run) (n : Nat) :
    Records target P (run.search target n) := by
  induction n generalizing run with
  | zero => exact records
  | succ n ih =>
    rcases run.search_cases target with ⟨_, same⟩ | ⟨_, _, stopped⟩ | ⟨_, _, onward⟩
    · exact (same _).symm ▸ records
    · exact (stopped n).symm ▸ records.pass step
    · exact (onward n).symm ▸ ih (records.pass step)

/-- A property that the rules keep holds of all facts if it holds of the premises and the
assumptions. -/
theorem chain (premises : ∀ f ∈ fs, P f) (assumptions : ∀ f ∈ gs, P f) (maxPasses : Int) :
    Records target P (Turnstile.chain fs gs target maxPasses) :=
  (start premises assumptions).search step _

end Records

end Run

/-- The facts of a search have names that can be written and follow from its premises and
assumptions. -/
theorem chain_records {premises assumptions : List Formula} {goal : Formula}
    (named : ∀ f ∈ premises ++ assumptions, f.Named) (goalNamed : goal.Named) (maxPasses : Int) :
    Run.Records goal (fun f => f.Named ∧ Entails (premises ++ assumptions) f)
      (chain premises assumptions goal maxPasses) := by
  refine Run.Records.chain ?_ ?_ ?_ maxPasses
  · intro known proper c member
    obtain ⟨cited, subset, _, infers⟩ :=
      Candidate.justified_of_mem_all (fun fact h => (proper fact h).1) goalNamed member
    have citedProper : ∀ f ∈ cited.map Fact.formula,
        f.Named ∧ Entails (premises ++ assumptions) f := by
      intro f h
      obtain ⟨fact, isCited, rfl⟩ := List.mem_map.mp h
      exact proper fact (subset isCited)
    refine ⟨infers.named fun f h => (citedProper f h).1, fun v holds => ?_⟩
    exact infers.eval fun f h => (citedProper f h).2 v holds
  · intro f h
    have member := List.mem_append_left assumptions h
    exact ⟨named f member, fun v holds => holds f member⟩
  · intro f h
    have member := List.mem_append_right premises h
    exact ⟨named f member, fun v holds => holds f member⟩

theorem entails_of_found {premises assumptions : List Formula} {goal : Formula} {maxPasses : Int}
    (named : ∀ f ∈ premises ++ assumptions, f.Named) (goalNamed : goal.Named)
    (found : (chain premises assumptions goal maxPasses).found = true) :
    Entails (premises ++ assumptions) goal := by
  have records := chain_records named goalNamed maxPasses
  obtain ⟨fact, member, same⟩ := records.found.mp found
  obtain ⟨factNamed, entailed⟩ := records.facts fact member
  rw [fact.key_eq] at same
  obtain rfl := factNamed.canonical_injective goalNamed same
  exact entailed

theorem method_prove_eq_direct_iff {premises : List Formula} {goal : Formula} {maxPasses : Int} :
    (prove premises goal maxPasses).method = .direct ↔
      (chain premises [] goal maxPasses).found = true := by
  unfold prove
  dsimp only
  split
  next found => simp [found]
  next missed =>
    split
    · split <;> simp [missed]
    · simp [missed]

/-- A proof is found directly or, for an implication, from its antecedent. -/
theorem derived_prove_iff {premises : List Formula} {goal : Formula} {maxPasses : Int} :
    (prove premises goal maxPasses).derived = true ↔
      (chain premises [] goal maxPasses).found = true ∨
        ∃ l r, goal = .implies l r ∧ (chain premises [l] r maxPasses).found = true := by
  by_cases direct : (chain premises [] goal maxPasses).found = true
  · simp [Proof.derived, method_prove_eq_direct_iff.mpr direct, direct]
  · cases goal with
    | implies l r =>
      have only : (∃ l' r', Formula.implies l r = .implies l' r' ∧
          (chain premises [l'] r' maxPasses).found = true) ↔
          (chain premises [l] r maxPasses).found = true := by
        constructor
        · rintro ⟨_, _, ⟨⟩, found⟩
          exact found
        · exact fun found => ⟨l, r, rfl, found⟩
      rw [only]
      cases second : (chain premises [l] r maxPasses).found <;>
        simp [prove, Proof.derived, direct, second]
    | var | not | and | or => simp [prove, Proof.derived, direct]

theorem entails_of_derived {premises : List Formula} {goal : Formula} {maxPasses : Int}
    (named : ∀ f ∈ premises, f.Named) (goalNamed : goal.Named)
    (derived : (prove premises goal maxPasses).derived = true) : Entails premises goal := by
  rcases derived_prove_iff.mp derived with direct | ⟨l, r, rfl, found⟩
  · simpa using entails_of_found (by simpa using named) goalNamed direct
  · rw [Formula.named_implies] at goalNamed
    have allNamed : ∀ f ∈ premises ++ [l], f.Named :=
      List.forall_mem_append.mpr ⟨named, by simpa using goalNamed.1⟩
    exact (entails_of_found allNamed goalNamed.2 found).implies

/-- All that a search records follows from its premises and assumptions, and all that is
proved follows from the premises alone. -/
theorem chain_and_prove_sound (premises : List Formula) (goal : Formula) (maxPasses : Int)
    (named : ∀ f ∈ premises, f.Named) (goalNamed : goal.Named) :
    (∀ assumptions : List Formula, (∀ f ∈ assumptions, f.Named) →
      ∀ fact ∈ (chain premises assumptions goal maxPasses).facts,
        Entails (premises ++ assumptions) fact.formula) ∧
    ((prove premises goal maxPasses).derived = true → Entails premises goal) := by
  refine ⟨fun assumptions assumptionsNamed fact member => ?_, entails_of_derived named goalNamed⟩
  have allNamed := List.forall_mem_append.mpr ⟨named, assumptionsNamed⟩
  exact ((chain_records allNamed goalNamed maxPasses).facts fact member).2

/-- From `Q -> R` the goal `P & Q -> R` is only reached by assuming `P & Q`. -/
theorem chain_and_prove_sound_by_discharge :
    let premises : List Formula := [.implies (.var "Q") (.var "R")]
    let goal : Formula := .implies (.and (.var "P") (.var "Q")) (.var "R")
    (prove premises goal 3).method = .conditional ∧ Entails premises goal := by
  intro premises goal
  have named : ∀ f ∈ premises, f.Named := by decide +kernel
  have goalNamed : goal.Named := by decide +kernel
  have conditional : (prove premises goal 3).method = .conditional := by decide +kernel
  refine ⟨conditional, (chain_and_prove_sound premises goal 3 named goalNamed).2 ?_⟩
  simp [Proof.derived, conditional]

end Turnstile
