import Mathlib.Data.List.Forall2
import Turnstile.Argument.Basic
import Turnstile.Proofs.RoundTrip

/-! An argument that can be analysed has a formula for each of its texts, in their order. Which
error is reported for an argument that cannot be is not settled here. -/
namespace Turnstile

theorem bind_eq_ok_iff {x : Except ε α} {f : α → Except ε β} {b : β} :
    (x >>= f) = .ok b ↔ ∃ a, x = .ok a ∧ f a = .ok b := by
  cases x with
  | error e => simp [bind, Except.bind]
  | ok a => simp [bind, Except.bind]

theorem map_eq_ok_iff {x : Except ε α} {f : α → β} {b : β} :
    x.map f = .ok b ↔ ∃ a, x = .ok a ∧ f a = b := by
  cases x <;> simp [Except.map]

theorem map_eq_error_iff {x : Except ε α} {f : α → β} {e : ε} :
    x.map f = .error e ↔ x = .error e := by
  cases x <;> simp [Except.map]

theorem pairwise_zipIdx (xs : List α) : xs.zipIdx.Pairwise fun x y => x.2 < y.2 := by
  apply List.pairwise_map.mp
  rw [List.zipIdx_map_snd]
  exact List.pairwise_lt_range' 1

theorem exists_related_left {R : α → β → Prop} (related : List.Forall₂ R xs ys) {y : β}
    (member : y ∈ ys) : ∃ x ∈ xs, R x y := by
  induction related with
  | nil => contradiction
  | @cons x _ xs _ first _ ih =>
    rcases List.mem_cons.mp member with rfl | member
    · exact ⟨x, List.mem_cons_self, first⟩
    · obtain ⟨x, inside, related⟩ := ih member
      exact ⟨x, List.mem_cons_of_mem _ inside, related⟩

namespace Argument

theorem parsePremises_eq_ok_iff {n : Nat} {texts : List Text} {fs : List Formula} :
    parsePremises n texts = .ok fs ↔
      List.Forall₂ (fun text f => Formula.parse text = .ok f) texts fs := by
  induction texts generalizing n fs with
  | nil => simp [parsePremises, eq_comm]
  | cons text texts ih =>
    rw [parsePremises, List.forall₂_cons_left_iff]
    cases first : Formula.parse text with
    | error e => simp
    | ok f =>
      simp only [map_eq_ok_iff, ih]
      constructor
      · rintro ⟨gs, rest, rfl⟩
        exact ⟨f, gs, rfl, rest, rfl⟩
      · rintro ⟨g, gs, same, rest, rfl⟩
        obtain rfl := Except.ok.inj same
        exact ⟨gs, rest, rfl⟩

theorem parse_eq_ok_iff {a : Argument} {parsed : Parsed} : a.parse = .ok parsed ↔
    a.validate = .ok () ∧
      List.Forall₂ (fun text f => Formula.parse text = .ok f) a.premises parsed.premises ∧
      Formula.parse a.conclusion = .ok parsed.conclusion := by
  simp only [parse, bind_eq_ok_iff, parsePremises_eq_ok_iff]
  constructor
  · rintro ⟨_, validated, fs, premises, conclusion⟩
    split at conclusion
    · contradiction
    · next f read =>
      obtain rfl := Except.ok.inj conclusion
      exact ⟨validated, premises, read⟩
  · rintro ⟨validated, premises, conclusion⟩
    exact ⟨(), validated, _, premises, by rw [conclusion]⟩

theorem named_of_parse {a : Argument} {parsed : Parsed} (accepted : a.parse = .ok parsed) :
    (∀ p ∈ parsed.premises, p.Named) ∧ parsed.conclusion.Named := by
  obtain ⟨_, premises, conclusion⟩ := parse_eq_ok_iff.mp accepted
  refine ⟨fun p member => ?_, Formula.named_of_parse conclusion⟩
  obtain ⟨text, _, read⟩ := exists_related_left premises member
  exact Formula.named_of_parse read

end Argument

end Turnstile
