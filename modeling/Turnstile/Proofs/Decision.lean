import Turnstile.Proofs.Encoding

/-! With any correct solver, the search for models decides whether a conclusion follows from its
premises, and what it gives against an invalid argument is a model of the premises in which the
conclusion is false. Which of several such models it gives is left open. -/
namespace Turnstile

namespace Decision

inductive Right (premises : List Formula) (conclusion : Formula) : Decision → Prop
  | inconsistent (unsatisfied : ¬Consistent premises) :
    Right premises conclusion ⟨.inconsistent, none⟩
  | valid (consistent : Consistent premises) (follows : Entails premises conclusion) :
    Right premises conclusion ⟨.valid, none⟩
  | invalid (m : Model)
    (binds : ∀ x, (m.get? x).isSome = true ↔ x ∈ Formula.vars (premises ++ [conclusion]))
    (holds : Satisfies m.value premises) (fails : conclusion.eval m.value = false) :
    Right premises conclusion ⟨.invalid, some m⟩

theorem Right.inconsistent_iff (right : Right premises conclusion decision) :
    decision.verdict = .inconsistent ↔ ¬Consistent premises := by
  cases right with
  | inconsistent unsatisfied => simpa using unsatisfied
  | valid consistent follows => simpa using consistent
  | invalid m binds holds fails => simpa using ⟨m.value, holds⟩

theorem Right.valid_iff (right : Right premises conclusion decision) :
    decision.verdict = .valid ↔ Consistent premises ∧ Entails premises conclusion := by
  cases right with
  | inconsistent unsatisfied => simp [unsatisfied]
  | valid consistent follows => simp [consistent, follows]
  | invalid m binds holds fails => simp [not_entails_of_fails holds fails]

theorem Right.invalid_iff (right : Right premises conclusion decision) :
    decision.verdict = .invalid ↔ Consistent premises ∧ ¬Entails premises conclusion := by
  cases right with
  | inconsistent unsatisfied => simp [unsatisfied]
  | valid consistent follows => simp [follows]
  | invalid m binds holds fails => simpa [not_entails_of_fails holds fails] using ⟨m.value, holds⟩

end Decision

theorem value_ofList_map (names : List Text) (u : Text → Bool) {x : Text} (member : x ∈ names) :
    (Model.ofList (names.map fun name => (name, u name))).value x = u x := by
  rw [Model.value, Model.get?_ofList_map, if_pos member, Option.getD_some]

/-- Only the names of the argument need a value to refute it. -/
theorem right_of_refuted {u : Text → Bool} (refuted : Satisfies u (premises ++ [.not conclusion])) :
    Decision.Right premises conclusion ⟨.invalid, some (.ofList
      ((Formula.vars (premises ++ [conclusion])).map fun name => (name, u name)))⟩ := by
  obtain ⟨holds, fails⟩ := satisfies_append_not.mp refuted
  have agree : ∀ f ∈ premises ++ [conclusion], ∀ x ∈ f.leaves, (Model.ofList
      ((Formula.vars (premises ++ [conclusion])).map fun name => (name, u name))).value x = u x :=
    fun f member x leaf => value_ofList_map _ u (Formula.mem_vars.mpr ⟨f, member, leaf⟩)
  obtain ⟨agreePremises, agreeConclusion⟩ := List.forall_mem_append.mp agree
  refine .invalid _ (fun x => ?_) (fun f member => ?_) ?_
  · rw [Model.get?_ofList_map]
    split <;> simp_all
  · rw [Formula.eval_congr (agreePremises f member), holds f member]
  · rw [Formula.eval_congr (agreeConclusion conclusion (List.mem_singleton_self _)), fails]

theorem decideArgument_right {solver : Solver} (correct : solver.Correct)
    (premisesNamed : ∀ p ∈ premises, p.Named) (conclusionNamed : conclusion.Named) :
    Decision.Right premises conclusion (decideArgument premises conclusion solver) := by
  obtain ⟨valid, _, represents⟩ := Encoding.encodes_literals Encoding.valid_empty premisesNamed
  have encodes := Encoding.encodes_literal valid conclusionNamed
  have represents := represents.imp fun _ _ old => old.mono encodes.later
  have negated : List.Forall₂ _ _ (premises ++ [conclusion.not]) :=
    List.rel_append represents (.cons encodes.represents.negate .nil)
  unfold decideArgument
  simp only
  split
  next unsolved =>
    exact .inconsistent ((Encoding.isNone_solve_iff correct encodes.valid represents).mp unsolved)
  next solved =>
    split
    next unrefuted =>
      have consistent : Consistent premises :=
        not_not.mp (mt (Encoding.isNone_solve_iff correct encodes.valid represents).mpr solved)
      refine .valid consistent (entails_iff_not_consistent.mpr ?_)
      exact (Encoding.isNone_solve_iff correct encodes.valid negated).mp
        (Option.isNone_iff_eq_none.mpr unrefuted)
    next value refuted =>
      exact right_of_refuted (Encoding.satisfies_of_solve correct encodes.valid negated refuted)

/-- The search decides entailment with every correct solver, and refutes an argument
exactly by a model of its names. -/
theorem decideArgument_decides_entailment (solver : Solver) (correct : solver.Correct)
    (premises : List Formula) (conclusion : Formula)
    (premisesNamed : ∀ p ∈ premises, p.Named) (conclusionNamed : conclusion.Named) :
    ((decideArgument premises conclusion solver).verdict = .inconsistent ↔ ¬Consistent premises) ∧
    ((decideArgument premises conclusion solver).verdict = .valid ↔
      Consistent premises ∧ Entails premises conclusion) ∧
    ((decideArgument premises conclusion solver).verdict = .invalid ↔
      Consistent premises ∧ ¬Entails premises conclusion) ∧
    ((decideArgument premises conclusion solver).verdict = .invalid →
      ∃ m, (decideArgument premises conclusion solver).counterexample = some m ∧
        (∀ x, (m.get? x).isSome = true ↔ x ∈ Formula.vars (premises ++ [conclusion])) ∧
        Satisfies m.value premises ∧ conclusion.eval m.value = false) ∧
    ((decideArgument premises conclusion solver).verdict ≠ .invalid →
      (decideArgument premises conclusion solver).counterexample = none) := by
  have right := decideArgument_right correct premisesNamed conclusionNamed
  refine ⟨right.inconsistent_iff, right.valid_iff, right.invalid_iff, ?_, ?_⟩
  · generalize decideArgument premises conclusion solver = decision at right
    cases right with
    | inconsistent unsatisfied => simp
    | valid consistent follows => simp
    | invalid m binds holds fails => exact fun _ => ⟨m, rfl, binds, holds, fails⟩
  · generalize decideArgument premises conclusion solver = decision at right
    cases right with
    | inconsistent unsatisfied => simp
    | valid consistent follows => simp
    | invalid m binds holds fails => simp

/-- `P -> Q` and `(P -> Q) | P` share a definition, and do not lead to `P`. -/
theorem decideArgument_decides_entailment_with_sharing :
    let premises : List Formula :=
      [.implies (.var "P") (.var "Q"), .or (.implies (.var "P") (.var "Q")) (.var "P")]
    (decideArgument premises (.var "P")).verdict = .invalid ∧ ¬Entails premises (.var "P") := by
  intro premises
  have premisesNamed : ∀ p ∈ premises, p.Named := by decide +kernel
  have conclusionNamed : Formula.Named (.var "P") := by decide +kernel
  have invalid : (decideArgument premises (.var "P")).verdict = .invalid := by decide +kernel
  obtain ⟨_, _, refuted, _⟩ := decideArgument_decides_entailment Solver.search
    Solver.search_correct premises _ premisesNamed conclusionNamed
  exact ⟨invalid, (refuted.mp invalid).2⟩

end Turnstile
