import Turnstile.Formula.Basic

/-! What follows from some premises is what holds under every assignment of truth values to
names that makes them all true. Only the names that a formula holds matter for its value. -/
namespace Turnstile

namespace Formula

/-- Assignments that agree on the names of a formula give it one value. -/
theorem eval_congr {f : Formula} {u v : Text → Bool} (agree : ∀ x ∈ f.leaves, u x = v x) :
    f.eval u = f.eval v := by
  induction f with
  | var name => exact agree name (List.mem_singleton_self name)
  | not f ih => rw [eval, eval, ih agree]
  | and l r ihl ihr | or l r ihl ihr | implies l r ihl ihr =>
    obtain ⟨left, right⟩ := List.forall_mem_append.mp agree
    rw [eval, eval, ihl left, ihr right]

theorem leaves_ne_nil (f : Formula) : f.leaves ≠ [] := by
  induction f <;> simp_all [leaves]

theorem mem_vars {x : Text} {fs : List Formula} : x ∈ vars fs ↔ ∃ f ∈ fs, x ∈ f.leaves := by
  simp [vars]

end Formula

def Satisfies (v : Text → Bool) (fs : List Formula) : Prop :=
  ∀ f ∈ fs, f.eval v = true

def Consistent (fs : List Formula) : Prop :=
  ∃ v, Satisfies v fs

def Entails (premises : List Formula) (f : Formula) : Prop :=
  ∀ v, Satisfies v premises → f.eval v = true

theorem satisfies_append {v : Text → Bool} :
    Satisfies v (fs ++ gs) ↔ Satisfies v fs ∧ Satisfies v gs := by
  simp [Satisfies, or_imp, forall_and]

theorem satisfies_singleton {v : Text → Bool} : Satisfies v [f] ↔ f.eval v = true := by
  simp [Satisfies]

theorem satisfies_append_not {v : Text → Bool} :
    Satisfies v (fs ++ [.not f]) ↔ Satisfies v fs ∧ f.eval v = false := by
  rw [satisfies_append, satisfies_singleton, Formula.eval, Bool.not_eq_true']

theorem not_entails_of_fails {v : Text → Bool} (holds : Satisfies v premises)
    (fails : f.eval v = false) : ¬Entails premises f := fun follows =>
  Bool.false_ne_true (fails.symm.trans (follows v holds))

/-- A formula follows unless some assignment makes the premises true and it false. -/
theorem entails_iff_not_consistent : Entails premises f ↔ ¬Consistent (premises ++ [.not f]) := by
  constructor
  · rintro follows ⟨v, refuted⟩
    obtain ⟨holds, fails⟩ := satisfies_append_not.mp refuted
    exact not_entails_of_fails holds fails follows
  · intro unrefuted v holds
    cases value : f.eval v with
    | true => rfl
    | false => exact absurd ⟨v, satisfies_append_not.mpr ⟨holds, value⟩⟩ unrefuted

/-- What follows with an assumption follows from it. -/
theorem Entails.implies (conclusion : Entails (premises ++ [l]) r) :
    Entails premises (.implies l r) := by
  intro v holds
  cases assumed : l.eval v with
  | false => simp [Formula.eval, assumed]
  | true =>
    have derived := conclusion v (satisfies_append.mpr ⟨holds, satisfies_singleton.mpr assumed⟩)
    simp [Formula.eval, derived]

end Turnstile
