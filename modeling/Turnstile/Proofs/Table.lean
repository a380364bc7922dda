import Mathlib.Data.Finset.Card
import Turnstile.Proofs.Entailment
import Turnstile.Table

/-! A table has a row for every list of values of the names in its argument. Every assignment
agrees with one of them on these names, and no other name matters, so what the rows say is true
of all assignments. Names may be any texts here. -/
namespace Turnstile

theorem nodup_eraseDups [BEq α] [LawfulBEq α] : (xs : List α) → xs.eraseDups.Nodup
  | [] => by simp
  | x :: xs => by
    rw [List.eraseDups_cons, List.nodup_cons]
    exact ⟨by simp [List.mem_eraseDups], nodup_eraseDups _⟩
termination_by xs => xs.length
decreasing_by exact Nat.lt_succ_of_le (List.length_filter_le _ xs)

theorem Formula.nodup_vars (fs : List Formula) : (vars fs).Nodup :=
  nodup_eraseDups _

/-- The names of some formulas are as many as there are different leaves. -/
theorem Formula.length_vars (fs : List Formula) :
    (vars fs).length = (fs.flatMap leaves).toFinset.card := by
  rw [vars, ← List.toFinset_card_of_nodup (nodup_eraseDups _)]
  congr 1
  ext x
  simp

namespace Table

theorem mem_assignments {n : Nat} {values : List Bool} :
    values ∈ assignments n ↔ values.length = n := by
  induction n generalizing values with
  | zero => simp [assignments]
  | succ n ih =>
    cases values with
    | nil => simp [assignments]
    | cons b rest => cases b <;> simp [assignments, ih]

theorem valueIn_zip_map (v : Text → Bool) {names : List Text} {x : Text} (member : x ∈ names) :
    valueIn (names.zip (names.map v)) x = v x := by
  induction names with
  | nil => contradiction
  | cons y names ih =>
    rw [valueIn, List.map_cons, List.zip_cons_cons, Text.lookup_cons]
    by_cases same : x = y
    · simp [same]
    · rw [if_neg same]
      exact ih (List.mem_of_ne_of_mem same member)

theorem map_valueIn_zip {names : List Text} (distinct : names.Nodup) {values : List Bool}
    (length : values.length = names.length) : names.map (valueIn (names.zip values)) = values := by
  induction names generalizing values with
  | nil => rw [List.map_nil, List.length_eq_zero_iff.mp length]
  | cons x names ih =>
    obtain ⟨new, distinct⟩ := List.nodup_cons.mp distinct
    obtain _ | ⟨b, values⟩ := values
    · contradiction
    · have others : ∀ y ∈ names, valueIn ((x, b) :: names.zip values) y =
          valueIn (names.zip values) y := by
        intro y member
        have apart : y ≠ x := fun same => new (same ▸ member)
        rw [valueIn, valueIn, Text.lookup_cons, if_neg apart]
      rw [List.zip_cons_cons, List.map_cons, List.map_congr_left others,
        ih distinct (Nat.succ.inj length), valueIn, Text.lookup_cons, if_pos rfl, Option.getD_some]

/-- The row with the values of an assignment says what the assignment makes of the argument. -/
theorem row_map (premises : List Formula) (conclusion : Formula) (v : Text → Bool) :
    let names := Formula.vars (premises ++ [conclusion])
    row premises conclusion names (names.map v) =
      ⟨names.map v, premises.all (·.eval v), conclusion.eval v⟩ := by
  intro names
  have agree : ∀ f ∈ premises ++ [conclusion],
      f.eval (valueIn (names.zip (names.map v))) = f.eval v := by
    intro f member
    apply Formula.eval_congr
    intro x leaf
    exact valueIn_zip_map v (Formula.mem_vars.mpr ⟨f, member, leaf⟩)
  obtain ⟨agreePremises, agreeConclusion⟩ := List.forall_mem_append.mp agree
  have premisesEqual : premises.all (·.eval (valueIn (names.zip (names.map v)))) =
      premises.all (·.eval v) := by
    rw [Bool.eq_iff_iff, List.all_eq_true, List.all_eq_true]
    exact forall₂_congr fun f member => by rw [agreePremises f member]
  rw [row, premisesEqual, agreeConclusion conclusion (List.mem_singleton_self _)]

section Built

variable {premises : List Formula} {conclusion : Formula} {maxVars : Int} {table : Table}
variable (built : build premises conclusion maxVars = .ok table)

include built

theorem eq_of_build : table =
    let names := Formula.vars (premises ++ [conclusion])
    let rows := (assignments names.length).map (row premises conclusion names)
    ⟨names, rows, verdictOf rows⟩ := by
  simp only [build] at built
  split at built
  · contradiction
  · exact (Except.ok.inj built).symm

theorem vars_of_build : table.vars = Formula.vars (premises ++ [conclusion]) := by
  rw [eq_of_build built]

theorem rows_of_build : table.rows =
    (assignments (Formula.vars (premises ++ [conclusion])).length).map
      (row premises conclusion (Formula.vars (premises ++ [conclusion]))) := by
  rw [eq_of_build built]

theorem verdict_of_build : table.verdict = verdictOf table.rows := by
  rw [eq_of_build built]

/-- The rows are what assignments make of the argument. -/
theorem mem_rows_iff {r : Row} : r ∈ table.rows ↔ ∃ v : Text → Bool,
    r = ⟨(Formula.vars (premises ++ [conclusion])).map v, premises.all (·.eval v),
      conclusion.eval v⟩ := by
  rw [rows_of_build built, List.mem_map]
  constructor
  · rintro ⟨values, member, rfl⟩
    refine ⟨valueIn ((Formula.vars (premises ++ [conclusion])).zip values), ?_⟩
    rw [map_valueIn_zip (Formula.nodup_vars _) (mem_assignments.mp member), row]
  · rintro ⟨v, rfl⟩
    exact ⟨_, mem_assignments.mpr (List.length_map v), row_map premises conclusion v⟩

/-- Every assignment has a row with its values. -/
theorem exists_row (v : Text → Bool) : ∃ r ∈ table.rows,
    r.premises = premises.all (·.eval v) ∧ r.conclusion = conclusion.eval v :=
  ⟨_, (mem_rows_iff built).mpr ⟨v, rfl⟩, rfl, rfl⟩

/-- Every row has the values of some assignment. -/
theorem exists_assignment {r : Row} (member : r ∈ table.rows) : ∃ v : Text → Bool,
    r.premises = premises.all (·.eval v) ∧ r.conclusion = conclusion.eval v := by
  obtain ⟨v, rfl⟩ := (mem_rows_iff built).mp member
  exact ⟨v, rfl, rfl⟩

theorem any_premises_iff : table.rows.any Row.premises = true ↔ Consistent premises := by
  rw [List.any_eq_true]
  constructor
  · rintro ⟨r, member, holds⟩
    obtain ⟨v, atPremises, _⟩ := exists_assignment built member
    exact ⟨v, List.all_eq_true.mp (atPremises ▸ holds)⟩
  · rintro ⟨v, holds⟩
    obtain ⟨r, member, atPremises, _⟩ := exists_row built v
    exact ⟨r, member, atPremises ▸ List.all_eq_true.mpr holds⟩

theorem any_refutes_iff : table.rows.any Row.refutes = true ↔ ¬Entails premises conclusion := by
  rw [entails_iff_not_consistent, not_not, List.any_eq_true]
  constructor
  · rintro ⟨r, member, refutes⟩
    obtain ⟨v, atPremises, atConclusion⟩ := exists_assignment built member
    simp only [Row.refutes, atPremises, atConclusion, Bool.and_eq_true, Bool.not_eq_true']
      at refutes
    exact ⟨v, satisfies_append_not.mpr ⟨List.all_eq_true.mp refutes.1, refutes.2⟩⟩
  · rintro ⟨v, refuted⟩
    obtain ⟨holds, fails⟩ := satisfies_append_not.mp refuted
    obtain ⟨r, member, atPremises, atConclusion⟩ := exists_row built v
    refine ⟨r, member, ?_⟩
    rw [Row.refutes, atPremises, atConclusion, fails, List.all_eq_true.mpr holds]
    rfl

theorem inconsistent_iff_of_build :
    table.verdict = .inconsistent ↔ ¬Consistent premises := by
  rw [verdict_of_build built, verdictOf, ← any_premises_iff built]
  cases table.rows.any Row.premises <;> cases table.rows.any Row.refutes <;> simp

theorem invalid_iff_of_build :
    table.verdict = .invalid ↔ Consistent premises ∧ ¬Entails premises conclusion := by
  rw [verdict_of_build built, verdictOf, ← any_premises_iff built, ← any_refutes_iff built]
  cases table.rows.any Row.premises <;> cases table.rows.any Row.refutes <;> simp

theorem valid_iff_of_build :
    table.verdict = .valid ↔ Consistent premises ∧ Entails premises conclusion := by
  rw [← not_not (a := Entails premises conclusion), verdict_of_build built, verdictOf,
    ← any_premises_iff built, ← any_refutes_iff built]
  cases table.rows.any Row.premises <;> cases table.rows.any Row.refutes <;> simp

end Built

theorem build_of_le {premises : List Formula} {conclusion : Formula} {maxVars : Int}
    (few : (Formula.vars (premises ++ [conclusion])).length ≤ limit maxVars) :
    ∃ table, build premises conclusion maxVars = .ok table := by
  rw [build, if_neg (Nat.not_lt.mpr few)]
  exact ⟨_, rfl⟩

theorem build_of_lt {premises : List Formula} {conclusion : Formula} {maxVars : Int}
    (many : limit maxVars < (Formula.vars (premises ++ [conclusion])).length) :
    build premises conclusion maxVars =
      .error ⟨(Formula.vars (premises ++ [conclusion])).length, limit maxVars⟩ := by
  rw [build, if_pos many]

/-- A table is refused exactly when the argument has more different names than the limit, and
any other table has the verdict of the argument over all assignments whatsoever: each of them
has a row, although only the names of the argument are given values. -/
theorem build_decides_entailment (premises : List Formula) (conclusion : Formula) (maxVars : Int) :
    let count := ((premises ++ [conclusion]).flatMap Formula.leaves).toFinset.card
    let limit := if maxVars ≤ 0 then 16 else if 30 < maxVars then 30 else maxVars.toNat
    ((∃ e, build premises conclusion maxVars = .error e) ↔ limit < count) ∧
    (limit < count → build premises conclusion maxVars = .error ⟨count, limit⟩) ∧
    (count ≤ limit → ∃ table, build premises conclusion maxVars = .ok table ∧
      (table.verdict = .inconsistent ↔ ¬Consistent premises) ∧
      (table.verdict = .valid ↔ Consistent premises ∧ Entails premises conclusion) ∧
      (table.verdict = .invalid ↔ Consistent premises ∧ ¬Entails premises conclusion) ∧
      ∀ v : Text → Bool, ∃ r ∈ table.rows,
        (r.premises = true ↔ Satisfies v premises) ∧ r.conclusion = conclusion.eval v) := by
  intro count bound
  have countEq : (Formula.vars (premises ++ [conclusion])).length = count := Formula.length_vars _
  have boundEq : limit maxVars = bound := rfl
  have refused : bound < count →
      build premises conclusion maxVars = .error ⟨count, bound⟩ := by
    intro many
    rw [← countEq, ← boundEq] at many ⊢
    exact build_of_lt many
  refine ⟨⟨?_, fun many => ⟨_, refused many⟩⟩, refused, ?_⟩
  · rintro ⟨e, failed⟩
    by_contra few
    rw [← countEq, ← boundEq, Nat.not_lt] at few
    obtain ⟨table, built⟩ := build_of_le few
    rw [built] at failed
    contradiction
  · intro few
    rw [← countEq, ← boundEq] at few
    obtain ⟨table, built⟩ := build_of_le few
    refine ⟨table, built, inconsistent_iff_of_build built, valid_iff_of_build built,
      invalid_iff_of_build built, ?_⟩
    intro v
    obtain ⟨r, member, atPremises, atConclusion⟩ := exists_row built v
    exact ⟨r, member, by rw [atPremises, List.all_eq_true, Satisfies], atConclusion⟩

end Table

end Turnstile
