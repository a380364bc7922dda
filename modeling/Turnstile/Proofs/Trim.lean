import Mathlib.Logic.Relation
import Turnstile.Proofs.Lines

/-! Trimming keeps the last step of a proof and all that it rests on. That is a proof of the
goal as long as the goal is on the last line. A goal that is a premise is followed by the
premises that come after it, and then trimming keeps only the last of them. -/
namespace Turnstile

def Step.renumber (number : Nat → Nat) (step : Step) : Step :=
  ⟨number step.seq, step.formula, step.reason.renumber number⟩

namespace Proof

def Cites (steps : List Step) (m n : Nat) : Prop :=
  ∃ step ∈ steps, step.seq = m ∧ n ∈ step.reason.sources

/-- The step of one number is another step or rests on it, maybe through further steps. -/
def RestsOn (steps : List Step) : Nat → Nat → Prop :=
  Relation.ReflTransGen (Cites steps)

theorem cites_cons {step : Step} {rest : List Step} {m n : Nat} :
    Cites (step :: rest) m n ↔ (step.seq = m ∧ n ∈ step.reason.sources) ∨ Cites rest m n := by
  simp [Cites]

theorem Cites.mono {steps more : List Step} (subset : steps ⊆ more) (cites : Cites steps m n) :
    Cites more m n := by
  obtain ⟨step, member, shape⟩ := cites
  exact ⟨step, subset member, shape⟩

theorem RestsOn.mono {steps more : List Step} (subset : steps ⊆ more)
    (rests : RestsOn steps m n) : RestsOn more m n :=
  Relation.ReflTransGen.mono (fun _ _ => Cites.mono subset) _ _ rests

section Needed

variable {step : Step} {rest : List Step}
variable (order : (step :: rest).Pairwise fun a b => b.seq < a.seq)
variable (sources : ∀ s ∈ step :: rest, ∀ n ∈ s.reason.sources, n < s.seq)

include order sources

/-- No step rests on a later one, so the last step is no longer met once it is left. -/
theorem RestsOn.of_ne (rests : RestsOn (step :: rest) m n) (apart : m ≠ step.seq) :
    RestsOn rest m n := by
  induction rests using Relation.ReflTransGen.head_induction_on with
  | refl => exact .refl
  | head cites _ ih =>
    rcases cites_cons.mp cites with ⟨same, _⟩ | earlier
    · exact absurd same.symm apart
    · obtain ⟨s, member, rfl, cited⟩ := id earlier
      have below := List.rel_of_pairwise_cons order member
      have lower := sources s (List.mem_cons_of_mem _ member) _ cited
      exact .head earlier (ih (by omega))

/-- A later step rests on an earlier one through what it cites. -/
theorem RestsOn.exists_source (rests : RestsOn (step :: rest) step.seq n) (apart : n ≠ step.seq) :
    ∃ m ∈ step.reason.sources, RestsOn rest m n := by
  rcases Relation.ReflTransGen.cases_head rests with same | ⟨m, cites, onward⟩
  · exact absurd same.symm apart
  · rcases cites_cons.mp cites with ⟨_, cited⟩ | ⟨s, member, same, _⟩
    · have lower := sources step List.mem_cons_self m cited
      exact ⟨m, cited, RestsOn.of_ne order sources onward (Nat.ne_of_lt lower)⟩
    · have below := List.rel_of_pairwise_cons order member
      omega

end Needed

theorem restsOn_of_mem_keepNeeded {steps : List Step} {needed : List Nat}
    (kept : s ∈ keepNeeded needed steps) : ∃ n ∈ needed, RestsOn steps n s.seq := by
  induction steps generalizing needed with
  | nil => contradiction
  | cons step rest ih =>
    have grows : rest ⊆ step :: rest := List.subset_cons_self step rest
    rw [keepNeeded] at kept
    split at kept
    next isNeeded =>
      have isNeeded := List.contains_iff_mem.mp isNeeded
      rcases List.mem_cons.mp kept with rfl | kept
      · exact ⟨_, isNeeded, .refl⟩
      · obtain ⟨n, member, rests⟩ := ih kept
        rcases List.mem_append.mp member with cited | member
        · have cites : Cites (step :: rest) step.seq n := ⟨step, List.mem_cons_self, rfl, cited⟩
          exact ⟨_, isNeeded, .head cites (rests.mono grows)⟩
        · exact ⟨n, member, rests.mono grows⟩
    next =>
      obtain ⟨n, member, rests⟩ := ih kept
      exact ⟨n, member, rests.mono grows⟩

theorem mem_keepNeeded_of_restsOn {steps : List Step}
    (order : steps.Pairwise fun a b => b.seq < a.seq)
    (sources : ∀ s ∈ steps, ∀ n ∈ s.reason.sources, n < s.seq) {needed : List Nat}
    (member : s ∈ steps) (isNeeded : n ∈ needed) (rests : RestsOn steps n s.seq) :
    s ∈ keepNeeded needed steps := by
  induction steps generalizing needed n with
  | nil => contradiction
  | cons step rest ih =>
    have order' := (List.pairwise_cons.mp order).2
    have sources' := fun s member => sources s (List.mem_cons_of_mem step member)
    rw [keepNeeded]
    by_cases last : n = step.seq
    · subst last
      rw [if_pos (List.contains_iff_mem.mpr isNeeded)]
      rcases List.mem_cons.mp member with rfl | member
      · exact List.mem_cons_self
      · have below := List.rel_of_pairwise_cons order member
        obtain ⟨m, cited, rests⟩ := RestsOn.exists_source order sources rests (Nat.ne_of_lt below)
        exact List.mem_cons_of_mem _
          (ih order' sources' member (List.mem_append_left _ cited) rests)
    · have onward := RestsOn.of_ne order sources rests last
      rcases List.mem_cons.mp member with rfl | member
      · rcases Relation.ReflTransGen.cases_tail onward with same | ⟨m, _, t, earlier, rfl, cited⟩
        · exact absurd same.symm last
        · have below := List.rel_of_pairwise_cons order earlier
          have lower := sources' t earlier _ cited
          omega
      · split
        · exact List.mem_cons_of_mem _
            (ih order' sources' member (List.mem_append_right _ isNeeded) onward)
        · exact ih order' sources' member isNeeded onward

theorem keepNeeded_sublist (needed : List Nat) (steps : List Step) :
    (keepNeeded needed steps).Sublist steps := by
  induction steps generalizing needed with
  | nil => exact List.Sublist.refl _
  | cons step rest ih =>
    rw [keepNeeded]
    split
    · exact (ih _).cons_cons step
    · exact (ih _).cons step

/-- The steps `kept` of a proof are the step of number `m` and those that it rests on. -/
structure Keeps (steps : List Step) (m : Nat) (kept : List Step) : Prop where
  sublist : kept.Sublist steps
  mem_iff : ∀ s, s ∈ kept ↔ s ∈ steps ∧ RestsOn steps m s.seq

theorem pairwise_of_numbered {steps : List Step}
    (numbered : ∀ i step, steps[i]? = some step → step.seq = i + 1) :
    steps.Pairwise fun a b => a.seq < b.seq := by
  rw [List.pairwise_iff_getElem]
  intro i j hi hj below
  rw [numbered i _ (List.getElem?_eq_getElem hi), numbered j _ (List.getElem?_eq_getElem hj)]
  omega

section Trim

variable {proof : Proof} (numbered : ∀ i step, proof.steps[i]? = some step → step.seq = i + 1)
variable (sources : ∀ s ∈ proof.steps, ∀ n ∈ s.reason.sources, n < s.seq)

include numbered sources

theorem trim_keeps {last : Step} (atEnd : proof.steps.getLast? = some last) :
    ∃ kept, Keeps proof.steps last.seq kept ∧ kept.getLast? = some last ∧
      proof.trim.steps = kept.map (Step.renumber fun n => (kept.map Step.seq).idxOf n + 1) := by
  have order : proof.steps.reverse.Pairwise fun a b => b.seq < a.seq :=
    List.pairwise_reverse.mpr (pairwise_of_numbered numbered)
  have sources' : ∀ s ∈ proof.steps.reverse, ∀ n ∈ s.reason.sources, n < s.seq := by
    simpa using sources
  have same : proof.steps.reverse ⊆ proof.steps := fun _ => List.mem_reverse.mp
  have same' : proof.steps ⊆ proof.steps.reverse := fun _ => List.mem_reverse.mpr
  refine ⟨(keepNeeded [last.seq] proof.steps.reverse).reverse, ⟨?_, ?_⟩, ?_, ?_⟩
  · have sublist := (keepNeeded_sublist [last.seq] proof.steps.reverse).reverse
    rwa [List.reverse_reverse] at sublist
  · intro s
    rw [List.mem_reverse]
    constructor
    · intro kept
      obtain ⟨n, isLast, rests⟩ := restsOn_of_mem_keepNeeded kept
      obtain rfl := List.mem_singleton.mp isLast
      exact ⟨same ((keepNeeded_sublist _ _).subset kept), rests.mono same⟩
    · rintro ⟨member, rests⟩
      exact mem_keepNeeded_of_restsOn order sources' (same' member) (List.mem_singleton_self _)
        (rests.mono same')
  · rw [List.getLast?_eq_head?_reverse, List.head?_eq_some_iff] at atEnd
    obtain ⟨rest, reversed⟩ := atEnd
    simp [reversed, keepNeeded]
  · simp only [trim, atEnd]
    rfl

end Trim

def citedPremises (premises : List Formula) (steps : List Step) : List Formula :=
  steps.filterMap fun step => match step.reason with
    | .premise k => premises[k - 1]?
    | _ => none

theorem citedPremises_renumber (premises : List Formula) (number : Nat → Nat)
    (steps : List Step) :
    citedPremises premises (steps.map (Step.renumber number)) = citedPremises premises steps := by
  rw [citedPremises, List.filterMap_map]
  congr 1
  funext step
  cases h : step.reason <;> simp [Step.renumber, Reason.renumber, h]

/-- Of lines that contain all that they cite, each is true if the premises they cite and the
assumptions are. -/
theorem eval_of_lines {premises assumptions : List Formula} {target : Formula}
    {steps kept : List Step} (lines : Lines premises assumptions target steps)
    (closed : ∀ s ∈ kept, ∀ t ∈ steps, t.seq ∈ s.reason.sources → t ∈ kept)
    {v : Text → Bool} (holds : Satisfies v (citedPremises premises kept))
    (assumed : Satisfies v assumptions) :
    ∀ s ∈ steps, s ∈ kept → s.formula.eval v = true := by
  intro s
  induction number : s.seq using Nat.strongRecOn generalizing s with
  | ind n ih =>
    intro line isKept
    have closed := closed s isKept
    cases lines.follows s line with
    | @premise k f _ here first =>
      exact holds f (List.mem_filterMap.mpr ⟨_, isKept, by simpa using here⟩)
    | assumption isAssumed => exact assumed _ isAssumed
    | inference cited known earlier infers =>
      apply infers.eval
      intro f h
      obtain ⟨t, isCited, rfl⟩ := List.mem_map.mp h
      have tLine := known isCited
      exact ih t.seq (number ▸ earlier t isCited) t rfl tLine
        (closed t tLine (List.mem_map_of_mem isCited))

/-- The premises that are cited by a checked proof's last step and all it rests on entail the
goal if the goal is on that last line. -/
theorem Checked.entails {premises : List Formula} {proof : Proof}
    (checked : Checked premises proof) {last : Step} {kept : List Step}
    (atEnd : proof.steps.getLast? = some last) (isGoal : last.formula = proof.goal)
    (keeps : Keeps proof.steps last.seq kept) :
    Entails (citedPremises premises kept) proof.goal := by
  have closed : ∀ s ∈ kept, ∀ t ∈ proof.steps, t.seq ∈ s.reason.sources → t ∈ kept := by
    intro s isKept t member cited
    obtain ⟨sMember, rests⟩ := (keeps.mem_iff s).mp isKept
    exact (keeps.mem_iff t).mpr ⟨member, rests.tail ⟨s, sMember, rfl, cited⟩⟩
  have lastKept : last ∈ kept :=
    (keeps.mem_iff last).mpr ⟨List.mem_of_getLast? atEnd, .refl⟩
  intro v holds
  cases checked with
  | direct lines reached =>
    rw [← isGoal]
    exact eval_of_lines lines closed holds (by simp [Satisfies]) last (List.mem_of_getLast? atEnd)
      lastKept
  | @conditional l r steps a c runs lines antecedent antecedentEq consequent consequentEq =>
    rw [List.getLast?_concat, Option.some.injEq] at atEnd
    subst atEnd
    cases assumed : l.eval v with
    | false => simp [Formula.eval, assumed]
    | true =>
      have cited := closed _ lastKept c (List.mem_append_left _ consequent)
        (by simp [Reason.sources])
      have reached := eval_of_lines lines
        (fun s isKept t line => closed s isKept t (List.mem_append_left _ line)) holds
        (satisfies_singleton.mpr assumed) c consequent cited
      rw [consequentEq] at reached
      simp [Formula.eval, reached]

end Proof

namespace Run

/-- The facts at the start are the premises and assumptions, each at its first place. -/
theorem formulas_addAll (goal : Formula) {entries : List (Formula × Reason)}
    (named : ∀ entry ∈ entries, entry.1.Named) :
    (addAll { goal := goal.canonical } entries).facts.map Fact.formula =
      (entries.map Prod.fst).eraseDups := by
  induction entries using List.reverseRecOn with
  | nil => rfl
  | append_singleton entries entry ih =>
    obtain ⟨entriesNamed, entryNamed⟩ := List.forall_mem_append.mp named
    have before := ih entriesNamed
    have addOne : addAll { goal := goal.canonical } (entries ++ [entry]) =
        (addAll { goal := goal.canonical } entries).add entry.1 entry.2 := addAll_append _ _ _
    rw [addOne, List.map_append, List.eraseDups_append, ← before]
    by_cases repeated : entry.1 ∈ entries.map Prod.fst
    · obtain ⟨other, member, same⟩ := List.mem_map.mp repeated
      have known := exists_key_addAll { goal := goal.canonical } member
      rw [add_of_known _ (same ▸ known)]
      simp [List.removeAll, repeated]
    · have unknown : ¬∃ fact ∈ (addAll { goal := goal.canonical } entries).facts,
          fact.key = entry.1.canonical := by
        rintro ⟨fact, member, key⟩
        have recorded := List.mem_map_of_mem (f := Fact.formula) member
        rw [before, List.mem_eraseDups] at recorded
        obtain ⟨other, otherMember, same⟩ := List.mem_map.mp recorded
        rw [fact.key_eq, ← same] at key
        have equal := (entriesNamed other otherMember).canonical_injective
          (entryNamed entry (List.mem_singleton_self _)) key
        exact repeated (List.mem_map.mpr ⟨other, otherMember, equal⟩)
      rw [add_of_new _ unknown]
      simp [List.removeAll, repeated, List.eraseDups_cons]

theorem formulas_start {premises : List Formula} (named : ∀ f ∈ premises, f.Named)
    (goal : Formula) :
    (start premises [] goal).facts.map Fact.formula = premises.eraseDups := by
  have formulas : (entries premises []).map Prod.fst = premises := by
    rw [map_fst_entries, List.append_nil]
  rw [facts_start, formulas_addAll goal, formulas]
  intro entry member
  exact named _ (formulas ▸ List.mem_map_of_mem member)

theorem found_start_iff {premises : List Formula} {goal : Formula}
    (named : ∀ f ∈ premises, f.Named) (goalNamed : goal.Named) :
    (start premises [] goal).found = true ↔ goal ∈ premises := by
  have records : Records goal (fun f => f.Named ∧ f ∈ premises) (start premises [] goal) :=
    .start (fun f member => ⟨named f member, member⟩) (by simp)
  rw [records.found]
  constructor
  · rintro ⟨fact, member, key⟩
    obtain ⟨factNamed, isPremise⟩ := records.facts fact member
    rw [fact.key_eq] at key
    exact factNamed.canonical_injective goalNamed key ▸ isPremise
  · intro member
    exact exists_key_start goal (List.mem_append_left [] member)

end Run

namespace Proof

/-- The step by which a proof has its goal. In a conditional proof that is the discharge. -/
structure Concludes (proof : Proof) (step : Step) : Prop where
  member : step ∈ proof.steps
  formula : step.formula = proof.goal
  discharge : proof.method = .conditional →
    ∃ sources, step.reason = .inference .conditionalProof sources

theorem Checked.exists_last {premises : List Formula} {proof : Proof}
    (checked : Checked premises proof) : ∃ last, proof.steps.getLast? = some last := by
  cases checked with
  | direct lines reached =>
    obtain ⟨step, member, _⟩ := reached
    exact ⟨_, List.getLast?_eq_some_getLast (List.ne_nil_of_mem member)⟩
  | conditional => exact ⟨_, List.getLast?_concat⟩

theorem Checked.concludes_of_conditional {premises : List Formula} {proof : Proof}
    (checked : Checked premises proof) (conditional : proof.method = .conditional) {last : Step}
    (atEnd : proof.steps.getLast? = some last) : Concludes proof last := by
  cases checked with
  | direct => contradiction
  | conditional =>
    rw [List.getLast?_concat, Option.some.injEq] at atEnd
    subst atEnd
    exact ⟨List.mem_append_right _ (List.mem_singleton_self _), rfl, fun _ => ⟨_, rfl⟩⟩

section Prove

variable {premises : List Formula} {goal : Formula} {maxPasses : Int}

theorem method_of_missed (missed : (chain premises [] goal maxPasses).found = false)
    (derived : (prove premises goal maxPasses).derived = true) :
    (prove premises goal maxPasses).method = .conditional := by
  cases method : (prove premises goal maxPasses).method with
  | noProof => simp [Proof.derived, method] at derived
  | direct =>
    rw [method_prove_eq_direct_iff.mp method] at missed
    contradiction
  | conditional => rfl

variable (named : ∀ f ∈ premises, f.Named) (goalNamed : goal.Named)

include named goalNamed

/-- A goal among the premises is proved by listing all of them. -/
theorem formulas_of_premise (isPremise : goal ∈ premises) :
    (prove premises goal maxPasses).method = .direct ∧
    (prove premises goal maxPasses).steps.map Step.formula = premises.eraseDups := by
  have initially := (Run.found_start_iff named goalNamed).mpr isPremise
  have same := Run.chain_of_found initially maxPasses
  rw [prove_of_found (same ▸ initially), same, List.map_map]
  exact ⟨rfl, Run.formulas_start named goal⟩

/-- Any other goal that is proved is on the last line. -/
theorem concludes_of_not_premise (notPremise : goal ∉ premises)
    (derived : (prove premises goal maxPasses).derived = true) {last : Step}
    (atEnd : (prove premises goal maxPasses).steps.getLast? = some last) :
    Concludes (prove premises goal maxPasses) last := by
  cases found : (chain premises [] goal maxPasses).found with
  | false =>
    have checked := checked_of_derived named goalNamed derived
    exact checked.concludes_of_conditional (method_of_missed found derived) atEnd
  | true =>
    have unfound := Bool.eq_false_iff.mpr (mt (Run.found_start_iff named goalNamed).mp notPremise)
    obtain ⟨fact, factLast, key⟩ := Run.last_of_found unfound found
    have allNamed : ∀ f ∈ premises ++ [], f.Named := by simpa using named
    have records := chain_records allNamed goalNamed maxPasses
    rw [prove_of_found found, List.getLast?_map, factLast] at atEnd
    obtain rfl := Option.some.inj atEnd
    have recorded := List.mem_of_getLast? factLast
    have factNamed := (records.facts fact recorded).1
    rw [records.goal, fact.key_eq] at key
    rw [prove_of_found found]
    exact ⟨List.mem_map_of_mem recorded, factNamed.canonical_injective goalNamed key, by simp⟩

end Prove

end Proof

/-- Trimming a proof keeps a proof of its goal exactly when the goal is no premise or the last
of the different premises. -/
theorem trim_keeps_goal_iff (premises : List Formula) (goal : Formula) (maxPasses : Int)
    (named : ∀ f ∈ premises, f.Named) (goalNamed : goal.Named)
    (derived : (prove premises goal maxPasses).derived = true) :
    let proof := prove premises goal maxPasses
    ((∃ last, proof.trim.steps.getLast? = some last ∧ last.text = goal.canonical) ∧
      (∃ step, proof.Concludes step ∧ ∃ kept, Proof.Keeps proof.steps step.seq kept ∧
        proof.trim.steps =
          kept.map (Step.renumber fun n => (kept.map Step.seq).idxOf n + 1)) ∧
      Entails (Proof.citedPremises premises proof.trim.steps) goal) ↔
    (goal ∈ premises → premises.eraseDups.getLast? = some goal) := by
  intro proof
  have checked : proof.Checked premises := Proof.checked_of_derived named goalNamed derived
  have goalEq : proof.goal = goal := Proof.goal_prove premises goal maxPasses
  obtain ⟨last, atEnd⟩ := checked.exists_last
  obtain ⟨kept, keeps, keptLast, trimmed⟩ :=
    Proof.trim_keeps checked.numbered checked.sources_lt atEnd
  have trimmedLast : proof.trim.steps.getLast? = some
      (last.renumber fun n => (kept.map Step.seq).idxOf n + 1) := by
    rw [trimmed, List.getLast?_map, keptLast, Option.map_some]
  have lastPremise : goal ∈ premises → premises.eraseDups.getLast? = some last.formula := by
    intro isPremise
    rw [← (Proof.formulas_of_premise named goalNamed isPremise).2, List.getLast?_map, atEnd,
      Option.map_some]
  constructor
  · rintro ⟨⟨t, atTrimmedEnd, text⟩, _⟩ isPremise
    rw [trimmedLast] at atTrimmedEnd
    obtain rfl := Option.some.inj atTrimmedEnd
    have lastNamed : last.formula.Named :=
      named _ (List.mem_eraseDups.mp (List.mem_of_getLast? (lastPremise isPremise)))
    rw [lastPremise isPremise, lastNamed.canonical_injective goalNamed text]
  · intro condition
    have concludes : proof.Concludes last := by
      by_cases isPremise : goal ∈ premises
      · have same := Option.some.inj ((lastPremise isPremise).symm.trans (condition isPremise))
        have direct : proof.method = .direct :=
          (Proof.formulas_of_premise named goalNamed isPremise).1
        exact ⟨List.mem_of_getLast? atEnd, same.trans goalEq.symm, by simp [direct]⟩
      · exact Proof.concludes_of_not_premise named goalNamed isPremise derived atEnd
    refine ⟨⟨_, trimmedLast, ?_⟩, ⟨last, concludes, kept, keeps, trimmed⟩, ?_⟩
    · rw [Step.text, Step.renumber, concludes.formula, goalEq]
    · rw [trimmed, Proof.citedPremises_renumber, ← goalEq]
      exact checked.entails atEnd concludes.formula keeps

/-- From `P` and `Q` the proof of `P` lists both, and trimming it leaves `Q` alone. -/
theorem trim_loses_goal :
    let proof := prove [.var "P", .var "Q"] (.var "P") 0
    proof.derived = true ∧ proof.trim.steps = [⟨1, .var "Q", .premise 2⟩] ∧
    ¬∃ last, proof.trim.steps.getLast? = some last ∧
      last.text = Formula.canonical (.var "P") := by
  intro proof
  have trimmed : proof.trim.steps = [⟨1, .var "Q", .premise 2⟩] := by decide +kernel
  refine ⟨by decide +kernel, trimmed, ?_⟩
  rw [trimmed]
  rintro ⟨last, atEnd, text⟩
  obtain rfl := Option.some.inj atEnd
  exact absurd text (by decide +kernel)

/-- Of `P -> Q`, `R`, `P` and `S`, the proof of `Q` that is left needs the first and third. -/
theorem trim_keeps_goal_iff_of_unused_premises :
    let premises : List Formula := [.implies (.var "P") (.var "Q"), .var "R", .var "P", .var "S"]
    (prove premises (.var "Q") 0).trim.steps =
      [⟨1, .implies (.var "P") (.var "Q"), .premise 1⟩, ⟨2, .var "P", .premise 3⟩,
        ⟨3, .var "Q", .inference .modusPonens [1, 2]⟩] ∧
    Entails [.implies (.var "P") (.var "Q"), .var "P"] (.var "Q") := by
  intro premises
  have named : ∀ f ∈ premises, f.Named := by decide +kernel
  have goalNamed : Formula.Named (.var "Q") := by decide +kernel
  have derived : (prove premises (.var "Q") 0).derived = true := by decide +kernel
  have trimmed : (prove premises (.var "Q") 0).trim.steps =
      [⟨1, .implies (.var "P") (.var "Q"), .premise 1⟩, ⟨2, .var "P", .premise 3⟩,
        ⟨3, .var "Q", .inference .modusPonens [1, 2]⟩] := by decide +kernel
  have entails := ((trim_keeps_goal_iff _ _ 0 named goalNamed derived).mpr (by decide +kernel)).2.2
  rw [trimmed] at entails
  exact ⟨trimmed, entails⟩

end Turnstile
