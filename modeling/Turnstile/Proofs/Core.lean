import Mathlib.Data.Finset.Basic
import Mathlib.Data.List.Lex
import Mathlib.Order.Bounds.Basic
import Turnstile.Proofs.Encoding

/-! Premises that suffice still do with more premises, so a premise that is put back is in every
sufficient set that agrees on the premises before it. One pass over the premises thus leaves the
first of all sufficient sets, compared at the first premise that only one of them holds. It need
not be a smallest one. -/
namespace Turnstile

/-- Some of the premises suffice if they are inconsistent, where all premises are, and entail
the conclusion otherwise. -/
structure Suffices (premises : List Formula) (conclusion : Formula) (part : List Formula) :
    Prop where
  inconsistent : ¬Consistent premises → ¬Consistent part
  entails : Consistent premises → Entails part conclusion

theorem Consistent.mono (subset : fs ⊆ gs) (consistent : Consistent gs) : Consistent fs := by
  obtain ⟨v, holds⟩ := consistent
  exact ⟨v, fun f member => holds f (subset member)⟩

theorem Suffices.mono (subset : part ⊆ more) (less : Suffices premises conclusion part) :
    Suffices premises conclusion more where
  inconsistent unsatisfied consistent := less.inconsistent unsatisfied (consistent.mono subset)
  entails consistent v holds := less.entails consistent v fun f member => holds f (subset member)

theorem suffices_iff_of_consistent (consistent : Consistent premises) :
    Suffices premises conclusion part ↔ Entails part conclusion :=
  ⟨fun enough => enough.entails consistent,
    fun follows => ⟨fun unsatisfied => absurd consistent unsatisfied, fun _ => follows⟩⟩

theorem suffices_iff_of_inconsistent (unsatisfied : ¬Consistent premises) :
    Suffices premises conclusion part ↔ ¬Consistent part :=
  ⟨fun enough => enough.inconsistent unsatisfied,
    fun remains => ⟨fun _ => remains, fun consistent => absurd consistent unsatisfied⟩⟩

/-- All premises suffice unless the argument is invalid. -/
theorem suffices_whole_iff :
    Suffices premises conclusion premises ↔
      ¬(Consistent premises ∧ ¬Entails premises conclusion) := by
  by_cases consistent : Consistent premises
  · rw [suffices_iff_of_consistent consistent, not_and, not_not, imp_iff_right consistent]
  · simp [suffices_iff_of_inconsistent consistent, consistent]

namespace Core

def premisesAt (premises : List Formula) (indices : Finset Nat) : List Formula :=
  (premises.zipIdx.filter fun (_, i) => i ∈ indices).map Prod.fst

def Sufficient (premises : List Formula) (conclusion : Formula) (indices : Finset Nat) : Prop :=
  Suffices premises conclusion (premisesAt premises indices)

/-- For each index in turn whether it is kept. As lists of truth values, marks are compared at
the first index where they differ, and dropped comes before kept. -/
def marks (count : Nat) (indices : Finset Nat) : List Bool :=
  (List.range count).map fun i => decide (i ∈ indices)

section Kept

@[simp] theorem kept_cons_true (x : α) (xs : List α) (marks : List Bool) :
    kept (x :: xs) (true :: marks) = x :: kept xs marks := rfl

@[simp] theorem kept_cons_false (x : α) (xs : List α) (marks : List Bool) :
    kept (x :: xs) (false :: marks) = kept xs marks := rfl

theorem kept_replicate_true (xs : List α) : kept xs (List.replicate xs.length true) = xs := by
  induction xs with
  | nil => rfl
  | cons x xs ih => rw [List.length_cons, List.replicate_succ, kept_cons_true, ih]

theorem mem_kept {xs : List α} {x : α} {marks : List Bool} :
    x ∈ kept xs marks ↔ ∃ i : Nat, xs[i]? = some x ∧ marks[i]? = some true := by
  rw [kept, List.mem_filterMap]
  constructor
  · rintro ⟨⟨y, mark⟩, member, marked⟩
    obtain ⟨i, here⟩ := List.mem_iff_getElem?.mp member
    obtain ⟨atItem, atMark⟩ := List.getElem?_zip_eq_some.mp here
    cases mark with
    | false => simp at marked
    | true =>
      obtain rfl : y = x := by simpa using marked
      exact ⟨i, atItem, atMark⟩
  · rintro ⟨i, here⟩
    have here : (xs.zip marks)[i]? = some (x, true) := List.getElem?_zip_eq_some.mpr here
    exact ⟨(x, true), List.mem_iff_getElem?.mpr ⟨i, here⟩, rfl⟩

theorem kept_sublist (xs : List α) (marks : List Bool) : (kept xs marks).Sublist xs := by
  induction xs generalizing marks with
  | nil => exact .slnil
  | cons x xs ih =>
    cases marks with
    | nil => exact List.nil_sublist _
    | cons mark marks =>
      cases mark with
      | true => exact (ih marks).cons_cons x
      | false => exact (ih marks).cons x

/-- More marks keep more. -/
theorem kept_subset (xs : List α) {v w : List Bool} (le : List.Forall₂ (· ≤ ·) v w) :
    kept xs v ⊆ kept xs w := by
  intro x member
  obtain ⟨i, atItem, atMark⟩ := mem_kept.mp member
  refine mem_kept.mpr ⟨i, atItem, ?_⟩
  obtain ⟨bound, marked⟩ := List.getElem?_eq_some_iff.mp atMark
  have above := (List.forall₂_iff_get.mp le).2 i bound (le.length_eq ▸ bound)
  rw [List.get_eq_getElem, List.get_eq_getElem, marked] at above
  exact List.getElem?_eq_some_iff.mpr ⟨le.length_eq ▸ bound, top_le_iff.mp above⟩

theorem forall₂_kept {R : α → β → Prop} {xs : List α} {ys : List β} (related : List.Forall₂ R xs ys)
    (marks : List Bool) : List.Forall₂ R (kept xs marks) (kept ys marks) := by
  induction related generalizing marks with
  | nil => exact .nil
  | cons first _ ih =>
    cases marks with
    | nil => exact .nil
    | cons mark marks =>
      cases mark with
      | true => exact .cons first (ih marks)
      | false => exact ih marks

end Kept

section Marks

theorem getElem?_marks (count : Nat) (indices : Finset Nat) (i : Nat) :
    (marks count indices)[i]? = if i < count then some (decide (i ∈ indices)) else none := by
  rw [marks, List.getElem?_map]
  split
  next bound => rw [List.getElem?_range bound, Option.map_some]
  next outside => rw [List.getElem?_eq_none (by simpa using outside), Option.map_none]

/-- The premises at some indices are those with the marks of these indices. -/
theorem premisesAt_eq_kept (premises : List Formula) (indices : Finset Nat) :
    premisesAt premises indices = kept premises (marks premises.length indices) := by
  suffices shifted : ∀ n, ((premises.zipIdx n).filter fun (_, i) => i ∈ indices).map Prod.fst =
      kept premises ((List.range' n premises.length).map fun i => decide (i ∈ indices)) by
    rw [marks, List.range_eq_range']
    exact shifted 0
  induction premises with
  | nil => intro n; rfl
  | cons f fs ih =>
    intro n
    rw [List.zipIdx_cons, List.length_cons, List.range'_succ, List.map_cons, List.filter_cons]
    by_cases inside : n ∈ indices
    · simp [inside, ih]
    · simp [inside, ih]

theorem mem_kept_range {marks : List Bool} {i : Nat} :
    i ∈ kept (List.range marks.length) marks ↔ marks[i]? = some true := by
  rw [mem_kept]
  constructor
  · rintro ⟨j, atIndex, atMark⟩
    obtain ⟨_, rfl⟩ := List.getElem?_eq_some_iff.mp atIndex
    rwa [List.getElem_range]
  · intro atMark
    obtain ⟨bound, _⟩ := List.getElem?_eq_some_iff.mp atMark
    exact ⟨i, List.getElem?_range bound, atMark⟩

/-- Marks are recovered from the indices that they keep. -/
theorem marks_kept_range (v : List Bool) :
    marks v.length (kept (List.range v.length) v).toFinset = v := by
  refine List.ext_getElem? fun i => ?_
  rw [getElem?_marks]
  split
  next bound =>
    rw [List.getElem?_eq_getElem bound]
    simp [mem_kept_range, bound]
  next outside => rw [List.getElem?_eq_none (Nat.not_lt.mp outside)]

theorem marks_le_of_subset (count : Nat) {indices more : Finset Nat} (subset : indices ⊆ more) :
    List.Forall₂ (· ≤ ·) (marks count indices) (marks count more) := by
  rw [marks, marks, List.forall₂_map_left_iff, List.forall₂_map_right_iff, List.forall₂_same]
  intro i _
  by_cases inside : i ∈ indices
  · simp [inside, subset inside]
  · simp [inside]

/-- Marks that are below others at every index come before them. -/
theorem le_of_forall₂_le {v w : List Bool} (le : List.Forall₂ (· ≤ ·) v w) : v ≤ w := by
  induction le with
  | nil => exact le_rfl
  | cons first _ ih =>
    rcases first.lt_or_eq with below | rfl
    · exact le_of_lt (List.Lex.rel below)
    · exact List.cons_le_cons _ ih

theorem marks_erase_lt {count i : Nat} {indices : Finset Nat} (inside : i ∈ indices)
    (bound : i < count) : marks count (indices.erase i) < marks count indices := by
  have below := le_of_forall₂_le (marks_le_of_subset count (Finset.erase_subset i indices))
  refine below.lt_of_ne fun equal => ?_
  have atIndex := congrArg (fun marks => marks[i]?) equal
  simp [getElem?_marks, bound, inside] at atIndex

theorem forall₂_le_replicate_true (v : List Bool) :
    List.Forall₂ (· ≤ ·) v (List.replicate v.length true) := by
  induction v with
  | nil => exact .nil
  | cons mark v ih => exact .cons (Bool.le_true mark) ih

end Marks

/-- If more marks are never less than enough, dropping marks in turn leaves the first of all
lists that are enough. -/
theorem shrink_least (enough : List Bool → Bool)
    (monotone : ∀ {v w}, List.Forall₂ (· ≤ ·) v w → enough v = true → enough w = true)
    (count : Nat) (settled : List Bool)
    (whole : enough (settled ++ List.replicate count true) = true) :
    ∃ rest, shrink enough settled (List.replicate count true) = settled ++ rest ∧
      rest.length = count ∧ enough (settled ++ rest) = true ∧
      ∀ w, w.length = count → enough (settled ++ w) = true → rest ≤ w := by
  induction count generalizing settled with
  | zero => exact ⟨[], by simp [shrink], rfl, whole, fun w empty _ => by simp_all⟩
  | succ count ih =>
    rw [List.replicate_succ, shrink]
    cases dropped : enough (settled ++ false :: List.replicate count true) with
    | true =>
      obtain ⟨rest, result, length, isEnough, least⟩ :=
        ih (settled ++ [false]) (by simpa using dropped)
      refine ⟨false :: rest, by simpa using result, by simp [length], by simpa using isEnough, ?_⟩
      rintro (_ | ⟨mark, w⟩) sameLength otherEnough
      · contradiction
      · have tail : w.length = count := Nat.succ.inj sameLength
        cases mark with
        | true => exact le_of_lt (List.Lex.rel rfl)
        | false => exact List.cons_le_cons _ (least w tail (by simpa using otherEnough))
    | false =>
      obtain ⟨rest, result, length, isEnough, least⟩ :=
        ih (settled ++ [true]) (by simpa [List.replicate_succ] using whole)
      refine ⟨true :: rest, by simpa using result, by simp [length], by simpa using isEnough, ?_⟩
      rintro (_ | ⟨mark, w⟩) sameLength otherEnough
      · contradiction
      · have tail : w.length = count := Nat.succ.inj sameLength
        cases mark with
        | true => exact List.cons_le_cons _ (least w tail (by simpa using otherEnough))
        | false =>
          have below : List.Forall₂ (· ≤ ·) (settled ++ false :: w)
              (settled ++ false :: List.replicate count true) :=
            List.rel_append (List.forall₂_refl settled)
              (.cons le_rfl (tail ▸ forall₂_le_replicate_true w))
          rw [monotone below otherEnough] at dropped
          contradiction

end Core

section Core

variable {premises : List Formula} {conclusion : Formula} {solver : Solver}
variable (correct : solver.Correct)
variable (premisesNamed : ∀ p ∈ premises, p.Named) (conclusionNamed : conclusion.Named)

include correct premisesNamed conclusionNamed

/-- Unless the premises do not suffice at all, the core is what is left of them by a test
for premises that suffice. -/
theorem core_cases :
    (core premises conclusion solver = none ∧ ¬Suffices premises conclusion premises) ∨
    Suffices premises conclusion premises ∧ ∃ enough : List Bool → Bool,
      (∀ v, enough v = true ↔ Suffices premises conclusion (Core.kept premises v)) ∧
      core premises conclusion solver = some (Core.kept (List.range premises.length)
        (Core.shrink enough [] (List.replicate premises.length true))) := by
  obtain ⟨valid, _, represents⟩ := Encoding.encodes_literals Encoding.valid_empty premisesNamed
  have encodes := Encoding.encodes_literal valid conclusionNamed
  have represents := represents.imp fun _ _ old => old.mono encodes.later
  have unsatisfied (v : List Bool) := Encoding.isNone_solve_iff correct encodes.valid
    (List.rel_append (Core.forall₂_kept represents v) .nil)
  have unrefuted (v : List Bool) := Encoding.isNone_solve_iff correct encodes.valid
    (List.rel_append (Core.forall₂_kept represents v) (.cons encodes.represents.negate .nil))
  simp only [← entails_iff_not_consistent, List.append_nil] at unsatisfied unrefuted
  have allUnsatisfied := unsatisfied (List.replicate premises.length true)
  have allUnrefuted := unrefuted (List.replicate premises.length true)
  rw [Core.kept_replicate_true] at allUnsatisfied allUnrefuted
  simp only [core, List.map_const', represents.length_eq, List.append_nil]
  by_cases consistent : Consistent premises
  · rw [if_neg (mt allUnsatisfied.mp (not_not.mpr consistent))]
    simp only [suffices_iff_of_consistent consistent]
    by_cases follows : Entails premises conclusion
    · rw [if_pos (allUnrefuted.mpr follows)]
      exact .inr ⟨follows, _, unrefuted, rfl⟩
    · rw [if_neg (mt allUnrefuted.mp follows)]
      exact .inl ⟨rfl, follows⟩
  · rw [if_pos (allUnsatisfied.mpr consistent)]
    simp only [suffices_iff_of_inconsistent consistent]
    exact .inr ⟨consistent, _, unsatisfied, rfl⟩

/-- There is no core exactly when the argument is invalid. -/
theorem core_eq_none_iff : core premises conclusion solver = none ↔
    Consistent premises ∧ ¬Entails premises conclusion := by
  rw [← not_iff_not, ← suffices_whole_iff]
  rcases core_cases correct premisesNamed conclusionNamed with ⟨none, lacking⟩ | ⟨whole, _, _, some⟩
  · simp [none, lacking]
  · simp [some, whole]

/-- The marks of the core come first among those of sufficient sets. -/
theorem exists_least_indices (whole : Suffices premises conclusion premises) :
    ∃ indices : List Nat, core premises conclusion solver = some indices ∧
      indices.Sublist (List.range premises.length) ∧
      Core.Sufficient premises conclusion indices.toFinset ∧
      ∀ set, Core.Sufficient premises conclusion set →
        Core.marks premises.length indices.toFinset ≤ Core.marks premises.length set := by
  rcases core_cases correct premisesNamed conclusionNamed with
    ⟨_, lacking⟩ | ⟨_, enough, test, result⟩
  · contradiction
  obtain ⟨v, shrunk, length, isEnough, least⟩ := Core.shrink_least enough
    (fun le less => (test _).mpr (((test _).mp less).mono (Core.kept_subset premises le)))
    premises.length [] ((test _).mpr (by simpa [Core.kept_replicate_true] using whole))
  rw [List.nil_append] at shrunk isEnough
  rw [shrunk] at result
  have recovered : Core.marks premises.length
      (Core.kept (List.range premises.length) v).toFinset = v := length ▸ Core.marks_kept_range v
  refine ⟨_, result, Core.kept_sublist _ v, ?_, ?_⟩
  · rw [Core.Sufficient, Core.premisesAt_eq_kept, recovered]
    exact (test v).mp isEnough
  · intro set sufficient
    rw [Core.Sufficient, Core.premisesAt_eq_kept] at sufficient
    rw [recovered]
    exact least _ (by simp [Core.marks]) ((test _).mpr sufficient)

end Core

/-- With any correct solver, the core of an argument that is not invalid is the first of all
sufficient sets of premises, so none of its premises can be dropped. An invalid argument has
no core. -/
theorem core_is_least_sufficient_set (solver : Solver) (correct : solver.Correct)
    (premises : List Formula) (conclusion : Formula)
    (premisesNamed : ∀ p ∈ premises, p.Named) (conclusionNamed : conclusion.Named) :
    (core premises conclusion solver = none ↔
      Consistent premises ∧ ¬Entails premises conclusion) ∧
    (¬(Consistent premises ∧ ¬Entails premises conclusion) →
      ∃ indices, core premises conclusion solver = some indices ∧
        indices.Pairwise (· < ·) ∧ (∀ i ∈ indices, i < premises.length) ∧
        Core.Sufficient premises conclusion indices.toFinset ∧
        (∀ i ∈ indices, ¬Core.Sufficient premises conclusion (indices.toFinset.erase i)) ∧
        IsLeast {v | ∃ set, Core.Sufficient premises conclusion set ∧
          v = Core.marks premises.length set} (Core.marks premises.length indices.toFinset)) := by
  refine ⟨core_eq_none_iff correct premisesNamed conclusionNamed, fun notInvalid => ?_⟩
  obtain ⟨indices, result, sublist, sufficient, least⟩ := exists_least_indices correct
    premisesNamed conclusionNamed (suffices_whole_iff.mpr notInvalid)
  have bound : ∀ i ∈ indices, i < premises.length := fun i member =>
    List.mem_range.mp (sublist.subset member)
  refine ⟨indices, result, List.pairwise_lt_range.sublist sublist, bound, sufficient, ?_, ?_⟩
  · intro i member fewer
    have smaller := Core.marks_erase_lt (List.mem_toFinset.mpr member) (bound i member)
    exact absurd (least _ fewer) (not_le_of_gt smaller)
  · refine ⟨⟨_, sufficient, rfl⟩, ?_⟩
    rintro _ ⟨set, setSufficient, rfl⟩
    exact least set setSufficient

/-- From `Q`, `P` and `P -> Q` to `Q` the first premise is dropped, although it would do alone. -/
theorem core_is_least_sufficient_set_not_smallest :
    let premises : List Formula := [.var "Q", .var "P", .implies (.var "P") (.var "Q")]
    core premises (.var "Q") = some [1, 2] ∧
    IsLeast {v | ∃ set, Core.Sufficient premises (.var "Q") set ∧ v = Core.marks 3 set}
      [false, true, true] := by
  intro premises
  have premisesNamed : ∀ p ∈ premises, p.Named := by decide +kernel
  have conclusionNamed : Formula.Named (.var "Q") := by decide +kernel
  have result : core premises (.var "Q") = some [1, 2] := by decide +kernel
  obtain ⟨none_iff, least⟩ := core_is_least_sufficient_set Solver.search Solver.search_correct
    premises _ premisesNamed conclusionNamed
  obtain ⟨indices, same, _, _, _, _, isLeast⟩ := least (by simp [← none_iff, result])
  obtain rfl : indices = [1, 2] := by simpa [result] using same.symm
  exact ⟨result, isLeast⟩

end Turnstile
