import Mathlib.Algebra.Group.Nat.Defs
import Turnstile.Proofs.Report

/-! The rows of a table are numbered by the binary numbers that their values spell, where true
is the digit 0 and the first name has the highest digit. So there is one row for each list of
values, and the first row that refutes the argument is the first assignment that does. -/
namespace Turnstile

namespace Table

/-- The order of lists of values by the first place where they differ, true before false. -/
def Earlier : List Bool → List Bool → Prop :=
  List.Lex fun a b => a = true ∧ b = false

theorem Earlier.ne {values others : List Bool} (earlier : Earlier values others) :
    values ≠ others := by
  rintro rfl
  exact List.lex_irrefl (by simp) values earlier

theorem Earlier.asymm {values others : List Bool} (earlier : Earlier values others) :
    ¬Earlier others values :=
  List.lex_asymm (by simp) earlier

/-- The values that the digits of a number stand for. -/
def digits (k i : Nat) : List Bool :=
  (List.range k).map fun j => !i.testBit (k - 1 - j)

theorem digits_succ (k i : Nat) : digits (k + 1) i = (!i.testBit k) :: digits k i := by
  rw [digits, List.range_succ_eq_map, List.map_cons, List.map_map, digits]
  congr 1
  apply List.map_congr_left
  intro j _
  simp only [Function.comp_apply]
  congr 2
  omega

/-- The highest digit does not matter for the others. -/
theorem digits_two_pow_add (k i : Nat) : digits k (2 ^ k + i) = digits k i := by
  apply List.map_congr_left
  intro j inside
  have lower : k - 1 - j < k := by
    have := List.mem_range.mp inside
    omega
  rw [Nat.testBit_two_pow_add_gt lower]

@[simp] theorem length_assignments (k : Nat) : (assignments k).length = 2 ^ k := by
  induction k with
  | zero => rfl
  | succ k ih =>
    rw [assignments, List.length_append, List.length_map, List.length_map, ih]
    omega

theorem getElem?_assignments {k i : Nat} (inside : i < 2 ^ k) :
    (assignments k)[i]? = some (digits k i) := by
  induction k generalizing i with
  | zero =>
    obtain rfl : i = 0 := by omega
    rfl
  | succ k ih =>
    have length : ((assignments k).map (true :: ·)).length = 2 ^ k := by simp
    rw [assignments, digits_succ]
    rcases Nat.lt_or_ge i (2 ^ k) with before | after
    · rw [List.getElem?_append_left (length ▸ before), List.getElem?_map, ih before,
        Nat.testBit_lt_two_pow before]
      rfl
    · obtain ⟨j, rfl⟩ := Nat.exists_eq_add_of_le after
      have rest : j < 2 ^ k := by omega
      rw [List.getElem?_append_right (length ▸ after), length, Nat.add_sub_cancel_left,
        List.getElem?_map, ih rest, digits_two_pow_add, Nat.testBit_two_pow_add_eq,
        Nat.testBit_lt_two_pow rest]
      rfl

theorem pairwise_assignments (k : Nat) : (assignments k).Pairwise Earlier := by
  induction k with
  | zero => exact List.pairwise_singleton _ _
  | succ k ih =>
    rw [assignments, List.pairwise_append, List.pairwise_map, List.pairwise_map]
    refine ⟨ih.imp .cons, ih.imp .cons, ?_⟩
    intro values first others second
    obtain ⟨_, _, rfl⟩ := List.mem_map.mp first
    obtain ⟨_, _, rfl⟩ := List.mem_map.mp second
    exact .rel ⟨rfl, rfl⟩

theorem mem_counterexamples {table : Table} {i : Nat} :
    i ∈ table.counterexamples ↔ ∃ r, table.rows[i]? = some r ∧ r.refutes = true := by
  simp [counterexamples, List.mk_mem_zipIdx_iff_getElem?]

theorem pairwise_counterexamples (table : Table) : table.counterexamples.Pairwise (· < ·) := by
  refine (pairwise_zipIdx table.rows).filterMap _ ?_
  rintro ⟨r, i⟩ ⟨s, j⟩ before a atFirst b atSecond
  simp only [Option.ite_none_right_eq_some, Option.some.injEq] at atFirst atSecond
  omega

section Built

variable {premises : List Formula} {conclusion : Formula} {maxVars : Int} {table : Table}
variable (built : build premises conclusion maxVars = .ok table)

include built

theorem map_values_rows : table.rows.map Row.values = assignments table.vars.length := by
  rw [rows_of_build built, vars_of_build built, List.map_map]
  exact List.map_id _

theorem getElem?_map_values (i : Nat) :
    (table.rows[i]?).map Row.values = (assignments table.vars.length)[i]? := by
  rw [← map_values_rows built, List.getElem?_map]

theorem length_rows : table.rows.length = 2 ^ table.vars.length := by
  rw [← List.length_map Row.values, map_values_rows built, length_assignments]

theorem values_eq_digits {i : Nat} {r : Row} (here : table.rows[i]? = some r) :
    r.values = digits table.vars.length i := by
  have inside := (List.getElem?_eq_some_iff.mp here).1
  rw [length_rows built] at inside
  have values := getElem?_map_values built i
  rw [here, getElem?_assignments inside] at values
  exact Option.some.inj values

theorem lt_iff_earlier {i j : Nat} {r s : Row} (first : table.rows[i]? = some r)
    (second : table.rows[j]? = some s) : i < j ↔ Earlier r.values s.values := by
  have forward {i j : Nat} {r s : Row} (first : table.rows[i]? = some r)
      (second : table.rows[j]? = some s) (before : i < j) : Earlier r.values s.values := by
    obtain ⟨inside, rfl⟩ := List.getElem?_eq_some_iff.mp first
    obtain ⟨inside', rfl⟩ := List.getElem?_eq_some_iff.mp second
    have ordered := pairwise_assignments table.vars.length
    rw [← map_values_rows built, List.pairwise_map] at ordered
    exact List.pairwise_iff_getElem.mp ordered i j inside inside' before
  refine ⟨forward first second, fun earlier => ?_⟩
  rcases Nat.lt_trichotomy i j with before | rfl | after
  · exact before
  · obtain rfl := Option.some.inj (first.symm.trans second)
    exact absurd rfl earlier.ne
  · exact absurd earlier (forward second first after).asymm

/-- Each list of values has one row. -/
theorem existsUnique_row {values : List Bool} (length : values.length = table.vars.length) :
    ∃! i : Nat, (table.rows[i]?).map Row.values = some values := by
  obtain ⟨i, here⟩ := List.mem_iff_getElem?.mp (mem_assignments.mpr length)
  refine ⟨i, (getElem?_map_values built i).trans here, fun j there => ?_⟩
  have inside := (List.getElem?_eq_some_iff.mp here).1
  have distinct : (assignments table.vars.length).Nodup :=
    (pairwise_assignments table.vars.length).imp Earlier.ne
  have again := (getElem?_map_values built j).symm.trans there
  exact ((List.getElem?_inj inside distinct).mp (here.trans again.symm)).symm

/-- A row says what its own model makes of the argument. -/
theorem row_eq_of_mem {r : Row} (member : r ∈ table.rows) :
    r = ⟨table.vars.map (table.model r).value, premises.all (·.eval (table.model r).value),
      conclusion.eval (table.model r).value⟩ := by
  obtain ⟨v, same⟩ := (mem_rows_iff built).mp member
  have names := vars_of_build built
  have values : r.values = table.vars.map v := by rw [same, names]
  have agree : table.vars.map (table.model r).value = table.vars.map v := by
    rw [model_map values]
    exact List.map_congr_left fun x => value_ofList_map table.vars v
  rw [names] at agree ⊢
  rw [← row_map premises conclusion (table.model r).value, agree, row_map]
  exact same

theorem map_get?_model {r : Row} (member : r ∈ table.rows) :
    table.vars.map (table.model r).get? = r.values.map some := by
  obtain ⟨v, same⟩ := (mem_rows_iff built).mp member
  have values : r.values = table.vars.map v := by rw [same, vars_of_build built]
  rw [model_map values, values, List.map_map]
  apply List.map_congr_left
  intro x known
  rw [Model.get?_ofList_map, if_pos known]
  rfl

theorem refutes_iff {r : Row} (member : r ∈ table.rows) : r.refutes = true ↔
    Satisfies (table.model r).value premises ∧ conclusion.eval (table.model r).value = false := by
  have same := row_eq_of_mem built member
  rw [Row.refutes, Bool.and_eq_true, Bool.not_eq_true', congrArg Row.premises same,
    congrArg Row.conclusion same, List.all_eq_true]
  rfl

/-- No assignment that refutes the argument comes before the counterexample. -/
theorem counterexample_first {m : Model} (found : table.counterexample? = some m)
    {v : Text → Bool} (holds : Satisfies v premises) (fails : conclusion.eval v = false) :
    table.vars.map m.value = table.vars.map v ∨
      Earlier (table.vars.map m.value) (table.vars.map v) := by
  obtain ⟨r, first, rfl⟩ := Option.map_eq_some_iff.mp found
  obtain ⟨_, i, inside, here, before⟩ := List.find?_eq_some_iff_getElem.mp first
  have atRow : table.rows[i]? = some r := List.getElem?_eq_some_iff.mpr ⟨inside, here⟩
  have values : r.values = table.vars.map (table.model r).value :=
    congrArg Row.values (row_eq_of_mem built (List.mem_of_getElem? atRow))
  obtain ⟨j, there⟩ := List.mem_iff_getElem?.mp ((mem_rows_iff built).mpr ⟨v, rfl⟩)
  rw [← vars_of_build built] at there
  rw [← values]
  rcases Nat.lt_trichotomy i j with later | rfl | sooner
  · exact .inr ((lt_iff_earlier built atRow there).mp later)
  · exact .inl (congrArg Row.values (Option.some.inj (atRow.symm.trans there)))
  · have unrefuted := before j sooner
    obtain ⟨_, isRow⟩ := List.getElem?_eq_some_iff.mp there
    simp [isRow, Row.refutes, List.all_eq_true.mpr holds, fails] at unrefuted

end Built

/-- A table within the limit has a row for each list of values of the names, which are those that
the digits of its number stand for, and the rows are in lexicographic order. Each row says what its
model makes of the argument. The counterexamples are the numbers of the rows that refute it, in
order, and the counterexample is the first of all assignments that do. There is one exactly if the
verdict says so. -/
theorem build_lists_assignments_in_order (premises : List Formula) (conclusion : Formula)
    (maxVars : Int) :
    let k := ((premises ++ [conclusion]).flatMap Formula.leaves).toFinset.card
    let limit := if maxVars ≤ 0 then 16 else if 30 < maxVars then 30 else maxVars.toNat
    let refuting (v : Text → Bool) : Prop := Satisfies v premises ∧ conclusion.eval v = false
    k ≤ limit → ∃ table, build premises conclusion maxVars = .ok table ∧
      table.vars = Formula.vars (premises ++ [conclusion]) ∧ table.vars.length = k ∧
      table.rows.length = 2 ^ k ∧
      (∀ values : List Bool, values.length = k →
        ∃! i : Nat, (table.rows[i]?).map Row.values = some values) ∧
      (∀ (i : Nat) r, table.rows[i]? = some r →
        r.values = (List.range k).map (fun j => !i.testBit (k - 1 - j)) ∧
        ∀ (j : Nat) s, table.rows[j]? = some s → (i < j ↔ Earlier r.values s.values)) ∧
      (∀ r ∈ table.rows, table.vars.map (table.model r).get? = r.values.map some ∧
        (r.premises = true ↔ Satisfies (table.model r).value premises) ∧
        r.conclusion = conclusion.eval (table.model r).value) ∧
      table.counterexamples.Pairwise (· < ·) ∧
      (∀ i, i ∈ table.counterexamples ↔
        ∃ r, table.rows[i]? = some r ∧ refuting (table.model r).value) ∧
      (table.counterexample? = none ↔ table.verdict ≠ .invalid) ∧
      ∀ m, table.counterexample? = some m →
        (∀ x, (m.get? x).isSome = true ↔ x ∈ table.vars) ∧ refuting m.value ∧
        ∀ v, refuting v → table.vars.map m.value = table.vars.map v ∨
          Earlier (table.vars.map m.value) (table.vars.map v) := by
  intro k bound refuting few
  have count : (Formula.vars (premises ++ [conclusion])).length = k := Formula.length_vars _
  obtain ⟨table, built⟩ : ∃ table, build premises conclusion maxVars = .ok table :=
    build_of_le (count.trans_le few)
  have names := vars_of_build built
  have size : table.vars.length = k := by rw [names, count]
  have right := right_of_build built
  refine ⟨table, built, names, size, size ▸ length_rows built, ?_, ?_, ?_,
    table.pairwise_counterexamples, ?_, not_iff_not.mp ?_, ?_⟩
  · intro values length
    exact existsUnique_row built (length.trans size.symm)
  · intro i r here
    exact ⟨size ▸ values_eq_digits built here, fun j s there => lt_iff_earlier built here there⟩
  · intro r member
    have same := row_eq_of_mem built member
    refine ⟨map_get?_model built member, ?_, congrArg Row.conclusion same⟩
    rw [congrArg Row.premises same, List.all_eq_true]
    rfl
  · intro i
    rw [mem_counterexamples]
    exact exists_congr fun r =>
      and_congr_right fun here => refutes_iff built (List.mem_of_getElem? here)
  · rw [not_not]
    exact right.counterexample_iff
  · intro m found
    obtain ⟨binds, refuted⟩ := right.refutes found
    refine ⟨fun x => by rw [binds, names], refuted, fun v other => ?_⟩
    exact counterexample_first built found other.1 other.2

/-- From `P -> Q` and `Q` the conclusion `P` does not follow, as the third of the four rows says,
in which `P` is false and `Q` is true. -/
theorem build_lists_assignments_in_order_of_converse :
    let premises : List Formula := [.implies (.var "P") (.var "Q"), .var "Q"]
    ∃ table m, build premises (.var "P") 2 = .ok table ∧ table.rows.length = 4 ∧
      table.counterexamples = [2] ∧ table.counterexample? = some m ∧
      (m.get? "P" = some false ∧ m.get? "Q" = some true) ∧
      ∀ v, Satisfies v premises → v "P" = false →
        table.vars.map m.value = table.vars.map v ∨
          Earlier (table.vars.map m.value) (table.vars.map v) := by
  intro premises
  have card : ((premises ++ [Formula.var "P"]).flatMap Formula.leaves).toFinset.card = 2 := by
    decide +kernel
  obtain ⟨table, built, _, _, length, _, _, _, _, _, _, first⟩ :=
    build_lists_assignments_in_order premises (.var "P") 2 (by rw [card]; decide)
  have evaluated : (build premises (.var "P") 2).toOption.map (fun table =>
      (table.counterexamples, table.counterexample?.map fun m => (m.get? "P", m.get? "Q"))) =
      some ([2], some (some false, some true)) := by decide +kernel
  rw [built] at evaluated
  obtain ⟨indices, given⟩ := Prod.mk.inj (Option.some.inj evaluated)
  obtain ⟨m, found, values⟩ := Option.map_eq_some_iff.mp given
  obtain ⟨_, _, least⟩ := first m found
  refine ⟨table, m, built, by rw [length, card]; rfl, indices, found, Prod.mk.inj values, ?_⟩
  exact fun v holds fails => least v ⟨holds, fails⟩

end Table

end Turnstile
