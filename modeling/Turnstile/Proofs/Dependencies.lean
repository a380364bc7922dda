import Mathlib.Data.List.Forall2
import Mathlib.Data.List.Perm.Subperm
import Turnstile.Proofs.Trim

/-! The steps of a proof are numbered from 1 and cite only steps before them, however the names
of variables are written. Trimming keeps what the last step rests on; what is left is again such
a proof, and trimming it once more changes nothing. Whether it still proves the goal is a
separate question. -/
namespace Turnstile

inductive Rule.Gives : Rule → List Formula → Formula → Prop where
  | infers (infers : Infers target rule fs f) : Gives rule fs f
  | discharge : Gives .conditionalProof [l, r] (.implies l r)

/-- What a rule gives from formulas with the texts of those that are cited. -/
def Rule.GivesByText (rule : Rule) (cited : List Formula) (f : Formula) : Prop :=
  ∃ fs, fs.map Formula.canonical = cited.map Formula.canonical ∧ rule.Gives fs f

namespace Reason

variable (number : Nat → Nat) (reason : Reason)

@[simp]
theorem sources_renumber : (reason.renumber number).sources = reason.sources.map number := by
  cases reason <;> rfl

@[simp]
theorem label_renumber : (reason.renumber number).label = reason.label := by
  cases reason <;> rfl

@[simp]
theorem premiseNumber_renumber : (reason.renumber number).premiseNumber = reason.premiseNumber := by
  cases reason <;> rfl

theorem renumber_eq_inference {rule : Rule} {sources : List Nat}
    (inferred : reason.renumber number = .inference rule sources) :
    ∃ cited, reason = .inference rule cited ∧ sources = cited.map number := by
  cases reason with
  | premise | assumption => contradiction
  | inference rule cited =>
    obtain ⟨rfl, rfl⟩ := inference.inj inferred
    exact ⟨cited, rfl, rfl⟩

theorem describe_inference (rule : Rule) (sources : List Nat) :
    (inference rule sources).describe =
      rule.label ++ " (" ++ Text.join ", " (sources.map Text.ofNat) ++ ")" ++
        if rule = .conditionalProof then (", discharge assumption" : Text) else [] := by
  cases rule with
  | conditionalProof =>
    simp only [describe, if_pos, List.append_assoc]
    rfl
  | _ => simp [describe]

end Reason

namespace Step

def Obeys (R : Rule → List Formula → Formula → Prop) (lines : List Step) (step : Step) : Prop :=
  ∀ rule sources, step.reason = .inference rule sources →
    ∃ cited ⊆ lines, cited.map seq = sources ∧ R rule (cited.map formula) step.formula

theorem Obeys.mono {step : Step} {lines more : List Step} (obeys : step.Obeys R lines)
    (subset : lines ⊆ more) : step.Obeys R more := by
  intro rule sources reason
  obtain ⟨cited, known, shape⟩ := obeys rule sources reason
  exact ⟨cited, List.Subset.trans known subset, shape⟩

theorem Follows.obeys {step : Step} {lines : List Step}
    (follows : Follows premises assumptions target lines step) : step.Obeys Rule.Gives lines := by
  cases follows with
  | premise | assumption => nofun
  | inference cited known earlier infers =>
    rintro rule sources ⟨⟩
    exact ⟨cited, known, rfl, .infers infers⟩

structure Renumbers (number : Nat → Nat) (s t : Step) : Prop where
  seq : t.seq = number s.seq
  formula : t.formula = s.formula
  text : t.text = s.text
  label : t.reason.label = s.reason.label
  premise : t.reason.premiseNumber = s.reason.premiseNumber
  sources : t.reason.sources = s.reason.sources.map number
  justification : t.justification = match s.reason with
    | .inference rule sources =>
      rule.label ++ " (" ++ Text.join ", " ((sources.map number).map Text.ofNat) ++ ")" ++
        if rule = .conditionalProof then (", discharge assumption" : Text) else []
    | _ => s.justification

theorem renumbers_renumber (number : Nat → Nat) (s : Step) :
    Renumbers number s (s.renumber number) where
  seq := rfl
  formula := rfl
  text := rfl
  label := s.reason.label_renumber number
  premise := s.reason.premiseNumber_renumber number
  sources := s.reason.sources_renumber number
  justification := by
    obtain ⟨seq, formula, reason⟩ := s
    cases reason with
    | premise | assumption => rfl
    | inference rule sources => exact Reason.describe_inference rule (sources.map number)

theorem renumber_eq_self {number : Nat → Nat} {s : Step} (seq : number s.seq = s.seq)
    (sources : ∀ n ∈ s.reason.sources, number n = n) : s.renumber number = s := by
  obtain ⟨n, formula, reason⟩ := s
  have same : reason.renumber number = reason := by
    cases reason with
    | premise | assumption => rfl
    | inference rule cited =>
      have numbers : cited.map number = cited :=
        (List.map_congr_left sources).trans (List.map_id cited)
      rw [Reason.renumber, numbers]
  rw [renumber, seq, same]

end Step

namespace Run

/-- Each fact is what its rule gives from the facts that it cites, as far as texts tell. -/
def Applies (run : Run) : Prop :=
  ∀ fact ∈ run.facts, (Step.ofFact fact).Obeys Rule.GivesByText (run.facts.map Step.ofFact)

namespace Applies

theorem start (premises assumptions : List Formula) (goal : Formula) :
    Applies (start premises assumptions goal) := by
  intro fact member rule sources reason
  rw [facts_start] at member
  rcases mem_of_mem_addAll member with none | origin
  · contradiction
  · rw [show fact.reason = _ from reason] at origin
    simp [entries] at origin

theorem add {run : Run} (applies : Applies run)
    (obeys : Step.Obeys Rule.GivesByText (run.facts.map Step.ofFact)
      ⟨run.facts.length + 1, f, reason⟩) :
    Applies (run.add f reason) := by
  have grows := List.map_subset Step.ofFact (run.facts_prefix_add f reason).subset
  intro fact member
  rcases mem_of_mem_add member with old | new
  · exact (applies fact old).mono grows
  · obtain ⟨rfl, rfl⟩ := Prod.mk.inj new
    exact Step.Obeys.mono obeys grows

theorem addCandidate {goal : Formula} {run : Run} {old : List Fact} {c : Candidate}
    (applies : Applies run) (known : old ⊆ run.facts) (member : c ∈ Candidate.all goal old) :
    Applies (run.add c.formula (.inference c.rule c.sources)) := by
  obtain ⟨cited, fs, subset, sources, texts, infers, _⟩ :=
    (Candidate.yields_of_mem_all member).exists_infers
  apply applies.add
  rintro rule _ ⟨⟩
  refine ⟨cited.map Step.ofFact, List.map_subset _ (List.Subset.trans subset known), ?_, fs, ?_,
    .infers infers⟩
  · rw [sources, List.map_map]
    rfl
  · rw [← texts, Fact.map_key, List.map_map (f := Step.ofFact)]
    rfl

theorem chain (premises assumptions : List Formula) (goal : Formula) (maxPasses : Int) :
    Applies (chain premises assumptions goal maxPasses) := by
  refine search_induction ?_ (fun _ _ applies => applies) (start premises assumptions goal) _
  intro old run c known member _ applies
  exact applies.addCandidate known member

end Applies

end Run

namespace Proof

structure Ordered (steps : List Step) : Prop where
  numbered : ∀ i step, steps[i]? = some step → step.seq = i + 1
  earlier : ∀ step ∈ steps, ∀ n ∈ step.reason.sources, 0 < n ∧ n < step.seq

theorem Ordered.pairwise {steps : List Step} (ordered : Ordered steps) :
    steps.Pairwise fun a b => a.seq < b.seq :=
  pairwise_of_numbered ordered.numbered

theorem Ordered.exists_of_cited {steps : List Step} (ordered : Ordered steps) (member : s ∈ steps)
    (cited : n ∈ s.reason.sources) : ∃ t ∈ steps, t.seq = n := by
  have bound := number_le_length ordered.numbered member
  have earlier := ordered.earlier s member n cited
  have inside : n - 1 < steps.length := by omega
  refine ⟨steps[n - 1], List.getElem_mem inside, ?_⟩
  rw [ordered.numbered (n - 1) _ (List.getElem?_eq_getElem inside)]
  omega

theorem Ordered.eq_of_seq {steps : List Step} (ordered : Ordered steps) (first : s ∈ steps)
    (second : t ∈ steps) (same : s.seq = t.seq) : s = t := by
  obtain ⟨i, here⟩ := List.mem_iff_getElem?.mp first
  obtain ⟨j, there⟩ := List.mem_iff_getElem?.mp second
  have places : i = j := by
    rw [ordered.numbered i s here, ordered.numbered j t there] at same
    omega
  exact Option.some.inj (here.symm.trans (places ▸ there))

section Prove

variable {premises : List Formula} {goal : Formula} {maxPasses : Int}

/-- The steps of a proof are none, the facts of a search, or these with a discharge. -/
theorem steps_prove_induction {Q : List Step → Prop} (none : Q [])
    (direct : Q ((chain premises [] goal maxPasses).facts.map Step.ofFact))
    (conditional : ∀ l r, goal = .implies l r →
      let lines := (chain premises [l] r maxPasses).facts.map Step.ofFact
      ∀ a ∈ lines, ∀ c ∈ lines, a.text = l.canonical → c.text = r.canonical → Q (lines ++
        [⟨lines.length + 1, goal, .inference .conditionalProof [a.seq, c.seq]⟩])) :
    Q (prove premises goal maxPasses).steps := by
  cases first : (chain premises [] goal maxPasses).found with
  | true =>
    rw [prove_of_found first]
    exact direct
  | false =>
    cases goal with
    | implies l r =>
      cases second : (chain premises [l] r maxPasses).found with
      | true =>
        obtain ⟨a, antecedent, c, consequent, aText, cText, steps⟩ := prove_of_assumed first second
        rw [steps]
        exact conditional l r rfl a antecedent c consequent aText cText
      | false => simpa [prove, first, second] using none
    | var | not | and | or => simpa [prove, first] using none

theorem ordered_chain (premises assumptions : List Formula) (goal : Formula) (maxPasses : Int) :
    Ordered ((chain premises assumptions goal maxPasses).facts.map Step.ofFact) := by
  have cites := Run.CitesEarlier.chain premises assumptions goal maxPasses
  refine ⟨cites.numbered_steps, ?_⟩
  intro step member
  obtain ⟨fact, recorded, rfl⟩ := List.mem_map.mp member
  exact cites.earlier fact recorded

theorem Ordered.concat {steps : List Step} {last : Step} (ordered : Ordered steps)
    (number : last.seq = steps.length + 1)
    (known : ∀ n ∈ last.reason.sources, ∃ s ∈ steps, s.seq = n) : Ordered (steps ++ [last]) := by
  refine ⟨numbered_concat ordered.numbered number, ?_⟩
  intro step member n cited
  rcases List.mem_append.mp member with line | isLast
  · exact ordered.earlier step line n cited
  · obtain rfl := List.mem_singleton.mp isLast
    obtain ⟨s, line, rfl⟩ := known n cited
    obtain ⟨i, here⟩ := List.mem_iff_getElem?.mp line
    have place := ordered.numbered i s here
    have bound := number_le_length ordered.numbered line
    exact ⟨by omega, by omega⟩

theorem ordered_prove (premises : List Formula) (goal : Formula) (maxPasses : Int) :
    Ordered (prove premises goal maxPasses).steps := by
  apply steps_prove_induction
  case none => exact ⟨by simp, by simp⟩
  case direct => exact ordered_chain premises [] goal maxPasses
  case conditional =>
    intro l r _ lines a antecedent c consequent _ _
    apply (ordered_chain premises [l] r maxPasses).concat rfl
    intro n cited
    rcases List.mem_pair.mp cited with rfl | rfl
    · exact ⟨a, antecedent, rfl⟩
    · exact ⟨c, consequent, rfl⟩

theorem obeys_concat {R : Rule → List Formula → Formula → Prop} {lines : List Step} {last : Step}
    (obey : ∀ s ∈ lines, s.Obeys R lines) (lastObeys : last.Obeys R lines) :
    ∀ s ∈ lines ++ [last], s.Obeys R (lines ++ [last]) := by
  intro s member
  have grows := List.subset_append_left lines [last]
  rcases List.mem_append.mp member with line | isLast
  · exact (obey s line).mono grows
  · rw [List.mem_singleton.mp isLast]
    exact lastObeys.mono grows

theorem obeys_discharge {R : Rule → List Formula → Formula → Prop} {lines : List Step} {a c : Step}
    (antecedent : a ∈ lines) (consequent : c ∈ lines)
    (given : R .conditionalProof [a.formula, c.formula] f) :
    Step.Obeys R lines ⟨n, f, .inference .conditionalProof [a.seq, c.seq]⟩ := by
  rintro rule sources ⟨⟩
  exact ⟨[a, c], by simp [antecedent, consequent], rfl, given⟩

theorem obeys_by_text (premises : List Formula) (goal : Formula) (maxPasses : Int) :
    ∀ step ∈ (prove premises goal maxPasses).steps,
      step.Obeys Rule.GivesByText (prove premises goal maxPasses).steps := by
  have lines (assumptions : List Formula) (target : Formula) :=
    List.forall_mem_map.mpr (Run.Applies.chain premises assumptions target maxPasses)
  apply steps_prove_induction (Q := fun steps => ∀ step ∈ steps, step.Obeys _ steps)
  case none => simp
  case direct => exact lines [] goal
  case conditional =>
    rintro l r rfl _ a antecedent c consequent aText cText
    apply obeys_concat (lines [l] r)
    exact obeys_discharge antecedent consequent
      ⟨[l, r], by simpa using ⟨aText.symm, cText.symm⟩, .discharge⟩

theorem obeys_of_named (named : ∀ f ∈ premises, f.Named) (goalNamed : goal.Named) :
    ∀ step ∈ (prove premises goal maxPasses).steps,
      step.Obeys Rule.Gives (prove premises goal maxPasses).steps := by
  apply steps_prove_induction (Q := fun steps => ∀ step ∈ steps, step.Obeys _ steps)
  case none => simp
  case direct =>
    intro step member
    exact ((lines_chain (by simpa using named) goalNamed).follows step member).obeys
  case conditional =>
    rintro l r rfl lines a antecedent c consequent aText cText
    obtain ⟨lNamed, rNamed⟩ := Formula.named_implies.mp goalNamed
    have allNamed : ∀ f ∈ premises ++ [l], f.Named :=
      List.forall_mem_append.mpr ⟨named, by simpa using lNamed⟩
    have aFormula := formula_eq_of_text allNamed rNamed lNamed aText antecedent
    have cFormula := formula_eq_of_text allNamed rNamed rNamed cText consequent
    apply obeys_concat
    · intro step member
      exact ((lines_chain allNamed rNamed).follows step member).obeys
    · refine obeys_discharge antecedent consequent ?_
      rw [aFormula, cFormula]
      exact .discharge

end Prove

structure Closure (steps kept : List Step) : Prop where
  sublist : kept.Sublist steps
  mem_iff : ∀ s, s ∈ kept ↔ s ∈ steps ∧
    ∃ last, steps.getLast? = some last ∧ RestsOn steps last.seq s.seq

/-- Every step but the last is cited by a later one. -/
def Linked (steps : List Step) : Prop :=
  ∀ step ∈ steps, steps.getLast? = some step ∨
    ∃ later ∈ steps, step.seq < later.seq ∧ step.seq ∈ later.reason.sources

def place (kept : List Step) (n : Nat) : Nat :=
  (kept.map Step.seq).idxOf n + 1

theorem trim_eq {proof : Proof} (ordered : Ordered proof.steps) :
    ∃ kept, Closure proof.steps kept ∧ kept.getLast? = proof.steps.getLast? ∧
      proof.trim = { proof with steps := kept.map (Step.renumber (place kept)) } := by
  cases atEnd : proof.steps.getLast? with
  | none =>
    have empty := List.getLast?_eq_none_iff.mp atEnd
    refine ⟨[], ⟨List.nil_sublist _, by simp [empty]⟩, rfl, ?_⟩
    rw [trim, atEnd, List.map_nil, ← empty]
  | some last =>
    obtain ⟨kept, keeps, keptLast, steps⟩ := trim_keeps ordered.numbered
      (fun s member n cited => (ordered.earlier s member n cited).2) atEnd
    refine ⟨kept, ⟨keeps.sublist, by simpa [atEnd] using keeps.mem_iff⟩, keptLast, ?_⟩
    have whole : proof.trim = { proof with steps := proof.trim.steps } := by
      simp only [trim, atEnd]
    rw [whole, steps]
    rfl

namespace Closure

variable {steps kept : List Step} (closure : Closure steps kept) (ordered : Ordered steps)

include closure

/-- With a step all that it cites is kept. -/
theorem mem_of_cited (isKept : s ∈ kept) (member : t ∈ steps)
    (cited : t.seq ∈ s.reason.sources) : t ∈ kept := by
  obtain ⟨sMember, last, atEnd, rests⟩ := (closure.mem_iff s).mp isKept
  exact (closure.mem_iff t).mpr ⟨member, last, atEnd, rests.tail ⟨s, sMember, rfl, cited⟩⟩

include ordered

theorem exists_of_cited (isKept : s ∈ kept) (cited : n ∈ s.reason.sources) :
    ∃ t ∈ kept, t.seq = n := by
  obtain ⟨t, member, rfl⟩ := ordered.exists_of_cited (closure.sublist.subset isKept) cited
  exact ⟨t, closure.mem_of_cited isKept member cited, rfl⟩

/-- A step is kept for the sake of a later one, unless it is the last. -/
theorem exists_citing (isKept : s ∈ kept) (notLast : steps.getLast? ≠ some s) :
    ∃ t ∈ kept, s.seq < t.seq ∧ s.seq ∈ t.reason.sources := by
  obtain ⟨member, last, atEnd, rests⟩ := (closure.mem_iff s).mp isKept
  rcases Relation.ReflTransGen.cases_tail rests with same | ⟨_, rests, t, tMember, rfl, cited⟩
  · have isLast := ordered.eq_of_seq member (List.mem_of_getLast? atEnd) same
    exact absurd (isLast ▸ atEnd) notLast
  · exact ⟨t, (closure.mem_iff t).mpr ⟨tMember, last, atEnd, rests⟩,
      (ordered.earlier t tMember _ cited).2, cited⟩

theorem pairwise : kept.Pairwise fun a b => a.seq < b.seq :=
  ordered.pairwise.sublist closure.sublist

/-- Steps are numbered by their places among those that are kept. -/
theorem place_seq (here : kept[i]? = some s) : place kept s.seq = i + 1 := by
  have nodup : (kept.map Step.seq).Nodup :=
    List.Pairwise.map Step.seq (fun _ _ => Nat.ne_of_lt) (closure.pairwise ordered)
  obtain ⟨inside, rfl⟩ := List.getElem?_eq_some_iff.mp here
  have index := nodup.idxOf_getElem i (by simpa using inside)
  rw [List.getElem_map] at index
  rw [place, index]

theorem place_lt (first : s ∈ kept) (second : t ∈ kept) (below : s.seq < t.seq) :
    place kept s.seq < place kept t.seq := by
  obtain ⟨i, hi, rfl⟩ := List.getElem_of_mem first
  obtain ⟨j, hj, rfl⟩ := List.getElem_of_mem second
  rw [closure.place_seq ordered (List.getElem?_eq_getElem hi),
    closure.place_seq ordered (List.getElem?_eq_getElem hj)]
  have increasing := List.pairwise_iff_getElem.mp (closure.pairwise ordered)
  rcases Nat.lt_trichotomy i j with before | rfl | after
  · omega
  · omega
  · have := increasing j i hj hi after
    omega

theorem place_lt_of_cited (isKept : s ∈ kept) (cited : n ∈ s.reason.sources) :
    place kept n < place kept s.seq := by
  obtain ⟨t, tKept, rfl⟩ := closure.exists_of_cited ordered isKept cited
  have member := closure.sublist.subset isKept
  exact closure.place_lt ordered tKept isKept (ordered.earlier s member _ cited).2

theorem ordered_renumber : Ordered (kept.map (Step.renumber (place kept))) := by
  refine ⟨?_, ?_⟩
  · intro i step here
    rw [List.getElem?_map] at here
    obtain ⟨s, atPlace, rfl⟩ := Option.map_eq_some_iff.mp here
    exact closure.place_seq ordered atPlace
  · intro step member n cited
    obtain ⟨s, isKept, rfl⟩ := List.mem_map.mp member
    rw [Step.renumber, Reason.sources_renumber] at cited
    obtain ⟨m, source, rfl⟩ := List.mem_map.mp cited
    exact ⟨Nat.succ_pos _, closure.place_lt_of_cited ordered isKept source⟩

omit ordered in
theorem obeys_renumber {R : Rule → List Formula → Formula → Prop} (number : Nat → Nat)
    (isKept : s ∈ kept) (obeys : s.Obeys R steps) :
    (s.renumber number).Obeys R (kept.map (Step.renumber number)) := by
  intro rule sources inferred
  obtain ⟨numbers, reason, rfl⟩ := Reason.renumber_eq_inference number s.reason inferred
  obtain ⟨cited, known, rfl, given⟩ := obeys rule numbers reason
  refine ⟨cited.map (Step.renumber number), List.map_subset _ ?_, ?_, ?_⟩
  · intro t isCited
    refine closure.mem_of_cited isKept (known isCited) ?_
    rw [reason]
    exact List.mem_map_of_mem isCited
  · rw [List.map_map, List.map_map]
    rfl
  · rw [List.map_map]
    exact given

theorem linked_renumber (atEnd : kept.getLast? = steps.getLast?) :
    Linked (kept.map (Step.renumber (place kept))) := by
  intro step member
  obtain ⟨s, isKept, rfl⟩ := List.mem_map.mp member
  by_cases last : steps.getLast? = some s
  · left
    rw [List.getLast?_map, atEnd, last, Option.map_some]
  · right
    obtain ⟨t, tKept, below, cited⟩ := closure.exists_citing ordered isKept last
    refine ⟨_, List.mem_map_of_mem tKept, closure.place_lt ordered isKept tKept below, ?_⟩
    rw [Step.renumber, Reason.sources_renumber]
    exact List.mem_map_of_mem cited

end Closure

section Linked

variable {steps : List Step} (ordered : Ordered steps) (linked : Linked steps)

include ordered linked

/-- If every step is cited by a later one, the last rests on all of them. -/
theorem restsOn_of_linked (member : s ∈ steps) :
    ∃ last, steps.getLast? = some last ∧ RestsOn steps last.seq s.seq := by
  induction distance : steps.length - s.seq using Nat.strongRecOn generalizing s with
  | ind n ih =>
    rcases linked s member with isLast | ⟨later, laterMember, below, cited⟩
    · exact ⟨s, isLast, .refl⟩
    · have bound := number_le_length ordered.numbered laterMember
      obtain ⟨last, atEnd, rests⟩ := ih (steps.length - later.seq) (by omega) laterMember rfl
      exact ⟨last, atEnd, rests.tail ⟨later, laterMember, rfl, cited⟩⟩

theorem Closure.eq_of_linked {kept : List Step} (closure : Closure steps kept) : kept = steps := by
  have nodup : steps.Nodup := ordered.pairwise.imp fun below same => by simp [same] at below
  have all : steps ⊆ kept := fun s member =>
    (closure.mem_iff s).mpr ⟨member, restsOn_of_linked ordered linked member⟩
  exact closure.sublist.eq_of_length_le (nodup.subperm all).length_le

end Linked

/-- Nothing changes if all steps are needed. -/
theorem trim_eq_self {proof : Proof} (ordered : Ordered proof.steps)
    (linked : Linked proof.steps) : proof.trim = proof := by
  obtain ⟨kept, closure, _, trimmed⟩ := trim_eq ordered
  obtain rfl := closure.eq_of_linked ordered linked
  have place_eq : ∀ s ∈ proof.steps, place proof.steps s.seq = s.seq := by
    intro s member
    obtain ⟨i, here⟩ := List.mem_iff_getElem?.mp member
    rw [closure.place_seq ordered here, ordered.numbered i s here]
  have same : ∀ s ∈ proof.steps, s.renumber (place proof.steps) = s := by
    intro s member
    refine Step.renumber_eq_self (place_eq s member) fun n cited => ?_
    obtain ⟨t, tMember, rfl⟩ := ordered.exists_of_cited member cited
    exact place_eq t tMember
  rw [trimmed, List.map_congr_left same, List.map_id']

end Proof

/-- Trimming keeps the last step and all that it rests on, in their order, numbers them from 1, and
has them cite the same steps by their new numbers. Apart from the numbers nothing in a step
changes, and each inference is an instance of its rule in the steps that it now cites. All steps
that are left are needed, so trimming twice is trimming once. -/
theorem trim_is_dependency_closure (premises : List Formula) (goal : Formula) (maxPasses : Int) :
    let proof := prove premises goal maxPasses
    let trimmed := proof.trim
    (∃ (kept : List Step) (number : Nat → Nat), Proof.Closure proof.steps kept ∧
      (∀ i s, kept[i]? = some s → number s.seq = i + 1) ∧
      (∀ s ∈ kept, ∀ n ∈ s.reason.sources,
        (∃ t ∈ kept, t.seq = n) ∧ 0 < number n ∧ number n < number s.seq) ∧
      List.Forall₂ (Step.Renumbers number) kept trimmed.steps) ∧
    (∀ step ∈ trimmed.steps, step.Obeys Rule.GivesByText trimmed.steps) ∧
    ((∀ f ∈ premises, f.Named) → goal.Named →
      ∀ step ∈ trimmed.steps, step.Obeys Rule.Gives trimmed.steps) ∧
    Proof.Linked trimmed.steps ∧
    (trimmed.goal = proof.goal ∧ trimmed.derived = proof.derived ∧
      trimmed.method = proof.method ∧ trimmed.runs = proof.runs) ∧
    trimmed.trim = trimmed := by
  intro proof trimmed
  have ordered : Proof.Ordered proof.steps := Proof.ordered_prove premises goal maxPasses
  obtain ⟨kept, closure, atEnd, trim⟩ := Proof.trim_eq ordered
  have steps : trimmed.steps = kept.map (Step.renumber (Proof.place kept)) := by
    rw [show trimmed = _ from trim]
  have obeys {R : Rule → List Formula → Formula → Prop}
      (before : ∀ step ∈ proof.steps, step.Obeys R proof.steps) :
      ∀ step ∈ trimmed.steps, step.Obeys R trimmed.steps := by
    rw [steps]
    intro step member
    obtain ⟨s, isKept, rfl⟩ := List.mem_map.mp member
    exact closure.obeys_renumber _ isKept (before s (closure.sublist.subset isKept))
  have linked := closure.linked_renumber ordered atEnd
  rw [← steps] at linked
  refine ⟨⟨kept, Proof.place kept, closure, fun i s => closure.place_seq ordered, ?_, ?_⟩,
    obeys (Proof.obeys_by_text premises goal maxPasses),
    fun named goalNamed => obeys (Proof.obeys_of_named named goalNamed), linked, ?_, ?_⟩
  · intro s isKept n cited
    exact ⟨closure.exists_of_cited ordered isKept cited, Nat.succ_pos _,
      closure.place_lt_of_cited ordered isKept cited⟩
  · rw [steps, List.forall₂_map_right_iff, List.forall₂_same]
    exact fun s _ => Step.renumbers_renumber _ s
  · rw [show trimmed = _ from trim]
    exact ⟨rfl, rfl, rfl, rfl⟩
  · refine Proof.trim_eq_self ?_ linked
    rw [steps]
    exact closure.ordered_renumber ordered

/-- From `A -> B`, next to a premise that is not needed, `A -> B & B` is proved by assuming `A`.
The step `B & B` cites `B` twice. -/
theorem trim_is_dependency_closure_of_doubled_step :
    let premises : List Formula := [.var "Z", .implies (.var "A") (.var "B")]
    let goal : Formula := .implies (.var "A") (.and (.var "B") (.var "B"))
    let trimmed := (prove premises goal 0).trim
    (prove premises goal 0).steps.length = 6 ∧
    trimmed.steps =
      [⟨1, .implies (.var "A") (.var "B"), .premise 2⟩, ⟨2, .var "A", .assumption⟩,
        ⟨3, .var "B", .inference .modusPonens [1, 2]⟩,
        ⟨4, .and (.var "B") (.var "B"), .inference .conjunction [3, 3]⟩,
        ⟨5, goal, .inference .conditionalProof [2, 4]⟩] ∧
    (∀ step ∈ trimmed.steps, step.Obeys Rule.Gives trimmed.steps) ∧ trimmed.trim = trimmed := by
  intro premises goal trimmed
  have named : ∀ f ∈ premises, f.Named := by decide +kernel
  have goalNamed : goal.Named := by decide +kernel
  obtain ⟨_, _, obeys, _, _, twice⟩ := trim_is_dependency_closure premises goal 0
  exact ⟨by decide +kernel, by decide +kernel, obeys named goalNamed, twice⟩

end Turnstile
