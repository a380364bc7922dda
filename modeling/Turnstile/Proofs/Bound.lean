import Turnstile.Proofs.Recording

/-! A search with a larger bound on its passes does what the search with the smaller bound does.
If that one has stopped before its bound, or with the goal, nothing changes; otherwise the
larger bound goes on from where the smaller one has stopped. Names of variables do not matter
here. -/
namespace Turnstile

namespace Run

section Search

variable {goal : Formula} {n m : Nat} {run : Run}

/-- Passes beyond the first `n` change nothing, or they go on from the state after `n` passes. -/
theorem search_add (goal : Formula) (n k : Nat) (run : Run) :
    run.search goal (n + k) = run.search goal n ∨
      (run.search goal n).passes = run.passes + n ∧
        run.search goal (n + k) = (run.search goal n).search goal k := by
  induction n generalizing run with
  | zero =>
    rw [Nat.zero_add]
    exact .inr ⟨rfl, rfl⟩
  | succ n ih =>
    rw [Nat.succ_add]
    rcases run.search_cases goal with ⟨_, same⟩ | ⟨_, _, stopped⟩ | ⟨_, _, onward⟩
    · rw [same, same]
      exact .inl rfl
    · rw [stopped, stopped]
      exact .inl rfl
    · rw [onward, onward]
      have passes : (run.pass goal).1.passes = run.passes + 1 := rfl
      rcases ih (run.pass goal).1 with same | ⟨full, goesOn⟩
      · exact .inl same
      · exact .inr ⟨by omega, goesOn⟩

theorem passes_search_le (goal : Formula) (n : Nat) (run : Run) :
    (run.search goal n).passes ≤ run.passes + n := by
  induction n generalizing run with
  | zero => exact Nat.le_refl _
  | succ n ih =>
    have passes : (run.pass goal).1.passes = run.passes + 1 := rfl
    have later := ih (run.pass goal).1
    rcases run.search_cases goal with ⟨_, same⟩ | ⟨_, _, stopped⟩ | ⟨_, _, onward⟩
    · rw [same]
      omega
    · rw [stopped]
      omega
    · rw [onward]
      omega

theorem facts_prefix_search_of_le (le : n ≤ m) :
    (run.search goal n).facts <+: (run.search goal m).facts := by
  obtain ⟨k, rfl⟩ := Nat.exists_eq_add_of_le le
  rcases search_add goal n k run with same | ⟨_, goesOn⟩
  · exact same ▸ List.prefix_rfl
  · rw [goesOn]
    exact facts_prefix_search _ goal k

theorem search_eq_of_stopped (le : n ≤ m)
    (stopped : (run.search goal n).found = true ∨ (run.search goal n).passes < run.passes + n) :
    run.search goal m = run.search goal n := by
  obtain ⟨k, rfl⟩ := Nat.exists_eq_add_of_le le
  rcases search_add goal n k run with same | ⟨full, goesOn⟩
  · exact same
  · rcases stopped with found | early
    · rw [goesOn, search_of_found found]
    · omega

end Search

/-- What a fact cites can be read off any later state of its search. -/
theorem sourceKeys_of_prefix {few many : Run} (cites : few.CitesEarlier)
    (kept : few.facts <+: many.facts) (member : fact ∈ few.facts) :
    many.sourceKeys fact = few.sourceKeys fact := by
  obtain ⟨more, facts⟩ := kept
  unfold sourceKeys
  apply List.filterMap_congr
  intro n source
  obtain ⟨positive, earlier⟩ := cites.earlier fact member n source
  have atMost := number_le_length cites.numbered member
  have inside : n - 1 < few.facts.length := by omega
  rw [← facts, List.getElem?_append_left inside]

end Run

section Chain

variable {premises assumptions : List Formula} {goal : Formula} {n m : Int}
variable (le : Run.bound n ≤ Run.bound m)

include le

theorem chain_eq_of_stopped
    (stopped : (chain premises assumptions goal n).found = true ∨
      (chain premises assumptions goal n).passes < Run.bound n) :
    chain premises assumptions goal m = chain premises assumptions goal n := by
  apply Run.search_eq_of_stopped le
  rwa [Run.passes_start, Nat.zero_add]

theorem found_chain_of_le (found : (chain premises assumptions goal n).found = true) :
    (chain premises assumptions goal m).found = true := by
  rwa [chain_eq_of_stopped le (.inl found)]

theorem derived_prove_of_le (derived : (prove premises goal n).derived = true) :
    (prove premises goal m).derived = true := by
  rw [derived_prove_iff] at derived ⊢
  rcases derived with direct | ⟨l, r, implication, found⟩
  · exact .inl (found_chain_of_le le direct)
  · exact .inr ⟨l, r, implication, found_chain_of_le le found⟩

/-- A direct proof stays as it is, as the search that found it does. -/
theorem prove_eq_of_direct (direct : (prove premises goal n).method = .direct) :
    prove premises goal m = prove premises goal n := by
  have found := method_prove_eq_direct_iff.mp direct
  have same := chain_eq_of_stopped le (.inl found)
  unfold prove
  rw [same, if_pos found, if_pos found]

end Chain

/-- A search under a larger bound records the same facts first, each with the same number, reason
and sources. It is the same search if the smaller bound was not reached or the goal was found. So
a goal with a proof keeps one, and a direct proof stays the same. -/
theorem chain_and_prove_extend (premises : List Formula) (goal : Formula) (n m : Int) :
    let bound (maxPasses : Int) : Nat := if maxPasses ≤ 0 then 5000 else maxPasses.toNat
    bound n ≤ bound m →
    (∀ assumptions : List Formula,
      let few := chain premises assumptions goal n
      let many := chain premises assumptions goal m
      few.facts <+: many.facts ∧
      (∀ fact ∈ few.facts, many.sourceKeys fact = few.sourceKeys fact) ∧
      few.passes ≤ bound n ∧
      (few.found = true ∨ few.passes < bound n → many = few)) ∧
    ((prove premises goal n).derived = true → (prove premises goal m).derived = true) ∧
    ((prove premises goal n).method = .direct → prove premises goal m = prove premises goal n) := by
  intro bound le
  refine ⟨fun assumptions => ?_, derived_prove_of_le le, prove_eq_of_direct le⟩
  intro few many
  have kept : few.facts <+: many.facts := Run.facts_prefix_search_of_le le
  refine ⟨kept, ?_, ?_, chain_eq_of_stopped le⟩
  · intro fact member
    exact Run.sourceKeys_of_prefix (.chain premises assumptions goal n) kept member
  · have passes := Run.passes_search_le goal (bound n) (Run.start premises assumptions goal)
    rwa [Run.passes_start, Nat.zero_add] at passes

/-- From `Q & (R & (A -> B))` and `B` one pass does not lead to `A -> B`, which is then proved by
assuming `A`; the default bound leads to a direct proof, and 2 passes to the same one. A search
for `Z` stops before 7 passes, so a bound of 9 makes no difference. -/
theorem chain_and_prove_extend_from_conditional :
    let goal : Formula := .implies (.var "A") (.var "B")
    let premises : List Formula := [.and (.var "Q") (.and (.var "R") goal), .var "B"]
    (prove premises goal 1).method = .conditional ∧ (prove premises goal 0).method = .direct ∧
    (chain premises [] goal 1).facts <+: (chain premises [] goal 0).facts ∧
    prove premises goal 0 = prove premises goal 2 ∧
    chain premises [] (.var "Z") 9 = chain premises [] (.var "Z") 7 := by
  intro goal premises
  have conditional : (prove premises goal 1).method = .conditional := by decide +kernel
  have direct : (prove premises goal 2).method = .direct := by decide +kernel
  have early : (chain premises [] (.var "Z") 7).passes < 7 := by decide +kernel
  have same : prove premises goal 0 = prove premises goal 2 :=
    (chain_and_prove_extend premises goal 2 0 (by decide)).2.2 direct
  have kept := ((chain_and_prove_extend premises goal 1 0 (by decide)).1 []).1
  have stopped :=
    ((chain_and_prove_extend premises (.var "Z") 7 9 (by decide)).1 []).2.2.2 (.inr early)
  exact ⟨conditional, by rw [same, direct], kept, same, stopped⟩

end Turnstile
