import Turnstile.Proofs.Argument
import Turnstile.Proofs.Core
import Turnstile.Proofs.Decision
import Turnstile.Proofs.Soundness
import Turnstile.Proofs.Table
import Turnstile.Report.Log

/-! A table and a search with a correct solver both make the right decision on an argument, and
there is only one right verdict. So it does not matter which of them a report takes its verdict
from, and what else it holds fits the verdict. That every valid argument has a proof is not
claimed. -/
namespace Turnstile

theorem Decision.Right.counterexample_iff (right : Right premises conclusion decision) :
    decision.counterexample ≠ none ↔ decision.verdict = .invalid := by
  cases right with
  | inconsistent unsatisfied => simp
  | valid consistent follows => simp
  | invalid m binds holds fails => simp

theorem Decision.Right.refutes (right : Right premises conclusion decision)
    (found : decision.counterexample = some m) :
    (∀ x, (m.get? x).isSome = true ↔ x ∈ Formula.vars (premises ++ [conclusion])) ∧
      Satisfies m.value premises ∧ conclusion.eval m.value = false := by
  cases right with
  | inconsistent unsatisfied => contradiction
  | valid consistent follows => contradiction
  | invalid m binds holds fails =>
    obtain rfl := Option.some.inj found
    exact ⟨binds, holds, fails⟩

theorem Decision.Right.verdict_unique (first : Right premises conclusion d)
    (second : Right premises conclusion e) : d.verdict = e.verdict := by
  cases verdict : d.verdict with
  | inconsistent => exact (second.inconsistent_iff.mpr (first.inconsistent_iff.mp verdict)).symm
  | valid => exact (second.valid_iff.mpr (first.valid_iff.mp verdict)).symm
  | invalid => exact (second.invalid_iff.mpr (first.invalid_iff.mp verdict)).symm

theorem Table.model_map {table : Table} {r : Row} {v : Text → Bool}
    (values : r.values = table.vars.map v) :
    table.model r = .ofList (table.vars.map fun name => (name, v name)) := by
  rw [model, values, List.map_prod_left_eq_zip]

/-- A table decides its argument rightly, and its first row that refutes the argument is a model
of its names. -/
theorem Table.right_of_build {premises : List Formula} {conclusion : Formula} {maxVars : Int}
    {table : Table} (built : build premises conclusion maxVars = .ok table) :
    Decision.Right premises conclusion ⟨table.verdict, table.counterexample?⟩ := by
  cases found : table.rows.find? Row.refutes with
  | some r =>
    obtain ⟨v, rfl⟩ := (mem_rows_iff built).mp (List.mem_of_find?_eq_some found)
    have refutes := List.find?_some found
    simp only [Row.refutes, Bool.and_eq_true, List.all_eq_true, Bool.not_eq_true'] at refutes
    obtain ⟨holds, fails⟩ := refutes
    have invalid : table.verdict = .invalid :=
      (invalid_iff_of_build built).mpr ⟨⟨v, holds⟩, not_entails_of_fails holds fails⟩
    have names := vars_of_build built
    have refuted : Satisfies v (premises ++ [.not conclusion]) :=
      satisfies_append_not.mpr ⟨holds, fails⟩
    rw [counterexample?, found, Option.map_some, model_map (v := v) (by rw [names]), names, invalid]
    exact right_of_refuted refuted
  | none =>
    have noCounterexample : table.counterexample? = none := by rw [counterexample?, found]; rfl
    have unrefuted : ¬table.rows.any Row.refutes = true := by
      simpa [List.find?_eq_none] using found
    have follows : Entails premises conclusion :=
      not_not.mp (mt (any_refutes_iff built).mpr unrefuted)
    rw [noCounterexample]
    by_cases consistent : Consistent premises
    · rw [(valid_iff_of_build built).mpr ⟨consistent, follows⟩]
      exact .valid consistent follows
    · rw [(inconsistent_iff_of_build built).mpr consistent]
      exact .inconsistent consistent

structure Report.Describes (limits : Limits) (solver : Solver) (parsed : Argument.Parsed)
    (r : Report) : Prop where
  premises : r.premises = parsed.premises
  conclusion : r.conclusion = parsed.conclusion
  decision : r.decision = decideArgument parsed.premises parsed.conclusion solver
  table : r.table = Table.build parsed.premises parsed.conclusion limits.maxVars
  core : r.core = if r.verdict = .invalid then none
    else Turnstile.core parsed.premises parsed.conclusion solver
  proof : r.proof = prove parsed.premises parsed.conclusion limits.maxPasses

theorem exists_analyze {a : Argument} {parsed : Argument.Parsed} (accepted : a.parse = .ok parsed)
    (limits : Limits) (solver : Solver) :
    ∃ r, analyze a limits solver = .ok r ∧ r.Describes limits solver parsed := by
  rw [analyze, accepted]
  exact ⟨_, rfl, ⟨rfl, rfl, rfl, rfl, rfl, rfl⟩⟩

theorem parse_of_analyze {a : Argument} {limits : Limits} {solver : Solver} {r : Report}
    (result : analyze a limits solver = .ok r) :
    ∃ parsed, a.parse = .ok parsed ∧ r.Describes limits solver parsed := by
  obtain ⟨parsed, accepted, _⟩ := bind_eq_ok_iff.mp result
  obtain ⟨r', same, describes⟩ := exists_analyze accepted limits solver
  obtain rfl := Except.ok.inj (result.symm.trans same)
  exact ⟨parsed, accepted, describes⟩

namespace Report.Describes

variable {limits : Limits} {solver : Solver} {parsed : Argument.Parsed} {r : Report}
variable (describes : r.Describes limits solver parsed) (correct : solver.Correct)
variable (premisesNamed : ∀ p ∈ parsed.premises, p.Named)
variable (conclusionNamed : parsed.conclusion.Named)

include describes correct premisesNamed conclusionNamed

theorem decision_right : Decision.Right parsed.premises parsed.conclusion r.decision :=
  describes.decision ▸ decideArgument_right correct premisesNamed conclusionNamed

/-- Whether or not there is a table, the decision is right. -/
theorem right : Decision.Right parsed.premises parsed.conclusion ⟨r.verdict, r.counterexample⟩ := by
  cases built : r.table with
  | error e =>
    have verdict : r.verdict = r.decision.verdict := by rw [verdict, built]; rfl
    have counterexample : r.counterexample = r.decision.counterexample := by
      rw [counterexample, built]
    rw [verdict, counterexample]
    exact describes.decision_right correct premisesNamed conclusionNamed
  | ok table =>
    have verdict : r.verdict = table.verdict := by rw [verdict, built]; rfl
    have counterexample : r.counterexample = table.counterexample? := by
      rw [counterexample, built]
    rw [verdict, counterexample]
    exact Table.right_of_build (describes.table ▸ built)

/-- The table agrees with the search. -/
theorem table_verdict {table : Table} (built : r.table = .ok table) :
    table.verdict = r.decision.verdict :=
  (Table.right_of_build (describes.table ▸ built)).verdict_unique
    (describes.decision_right correct premisesNamed conclusionNamed)

/-- An error would be logged only if the table disagreed with the search. -/
theorem severity_of_mem_log : ∀ entry ∈ r.log, entry.severity = .debug := by
  have onTable : ∀ entry ∈ r.tableLog, entry.severity = .debug := by
    unfold tableLog
    cases built : r.table with
    | error e => simp
    | ok table =>
      simp [describes.table_verdict correct premisesNamed conclusionNamed built]
  simp only [log, List.forall_mem_append]
  refine ⟨⟨⟨⟨by simp, onTable⟩, ?_⟩, List.forall_mem_map.mpr fun _ _ => rfl⟩, by simp⟩
  split <;> simp

theorem invalid_iff : r.verdict = .invalid ↔
    Consistent parsed.premises ∧ ¬Entails parsed.premises parsed.conclusion :=
  (describes.right correct premisesNamed conclusionNamed).invalid_iff

theorem core_eq : r.core = Turnstile.core parsed.premises parsed.conclusion solver := by
  have none_iff := core_eq_none_iff correct premisesNamed conclusionNamed
  rw [describes.core]
  split
  next invalid =>
    have refuted := (describes.invalid_iff correct premisesNamed conclusionNamed).mp invalid
    exact (none_iff.mpr refuted).symm
  next => rfl

end Report.Describes

/-- With any correct solver, every argument whose texts are formulas has a report under all
limits, and its verdict and core are the same under all of them. The table never disagrees
with the search, there is a core or else a counterexample, which is a model of exactly the
names, and an invalid argument is not proved. -/
theorem analyze_is_coherent (solver : Solver) (correct : solver.Correct) (a : Argument)
    (parsed : Argument.Parsed) (accepted : a.parse = .ok parsed) :
    ∃ verdict core, ∀ limits, ∃ r, analyze a limits solver = .ok r ∧
      r.verdict = verdict ∧ r.core = core ∧
      (∀ table, r.table = .ok table → table.verdict = r.decision.verdict) ∧
      (∀ entry ∈ r.log, entry.severity ≠ .error) ∧
      (r.core ≠ none ↔ r.verdict ≠ .invalid) ∧
      (r.counterexample ≠ none ↔ r.verdict = .invalid) ∧
      (∀ m, r.counterexample = some m →
        (∀ x, (m.get? x).isSome = true ↔
          x ∈ Formula.vars (parsed.premises ++ [parsed.conclusion])) ∧
        Satisfies m.value parsed.premises ∧ parsed.conclusion.eval m.value = false) ∧
      (r.proof.derived = true → r.verdict ≠ .invalid) := by
  obtain ⟨premisesNamed, conclusionNamed⟩ := Argument.named_of_parse accepted
  have decided := decideArgument_right correct premisesNamed conclusionNamed
  refine ⟨(decideArgument parsed.premises parsed.conclusion solver).verdict,
    core parsed.premises parsed.conclusion solver, fun limits => ?_⟩
  obtain ⟨r, result, describes⟩ := exists_analyze accepted limits solver
  have right := describes.right correct premisesNamed conclusionNamed
  have sameCore := describes.core_eq correct premisesNamed conclusionNamed
  refine ⟨r, result, right.verdict_unique decided, sameCore, ?_, ?_, ?_, ?_, ?_, ?_⟩
  · intro table built
    exact describes.table_verdict correct premisesNamed conclusionNamed built
  · intro entry member
    rw [describes.severity_of_mem_log correct premisesNamed conclusionNamed entry member]
    exact nofun
  · rw [sameCore, not_iff_not, core_eq_none_iff correct premisesNamed conclusionNamed]
    exact right.invalid_iff.symm
  · exact right.counterexample_iff
  · intro m found
    exact right.refutes found
  · intro derived invalid
    rw [describes.proof] at derived
    exact (right.invalid_iff.mp invalid).2
      (entails_of_derived premisesNamed conclusionNamed derived)

/-- With two names and a limit of one, `P -> Q` and `Q` to `P` is refuted without a table. -/
theorem analyze_is_coherent_without_table :
    Table.build [.implies (.var "P") (.var "Q"), .var "Q"] (.var "P") 1 = .error ⟨2, 1⟩ ∧
    ∃ r, analyze { premises := ["P -> Q", "Q"], conclusion := "P" } ⟨1, 0⟩ = .ok r ∧
      r.verdict = .invalid ∧ r.counterexample ≠ none ∧ r.core = none := by
  have accepted : ({ premises := ["P -> Q", "Q"], conclusion := "P" } : Argument).parse =
      .ok ⟨[.implies (.var "P") (.var "Q"), .var "Q"], .var "P"⟩ := by decide +kernel
  have invalid : ((analyze { premises := ["P -> Q", "Q"], conclusion := "P" } ⟨1, 0⟩).toOption.map
      Report.verdict) = some .invalid := by decide +kernel
  obtain ⟨verdict, core, coherent⟩ :=
    analyze_is_coherent Solver.search Solver.search_correct _ _ accepted
  obtain ⟨r, result, _, _, _, _, core_iff, counterexample_iff, _⟩ := coherent ⟨1, 0⟩
  have invalid : r.verdict = .invalid := by simpa [result, Except.toOption] using invalid
  refine ⟨by decide +kernel, r, result, invalid, counterexample_iff.mpr invalid, ?_⟩
  exact not_not.mp fun present => core_iff.mp present invalid

end Turnstile
