import Mathlib.Data.List.Nodup
import Turnstile.Proofs.Soundness

/-! A search only ever appends facts. It numbers them from 1 and keeps one fact for each text;
the premises and assumptions are recorded first, and the goal, unless it is one of them, last.
None of this depends on how the names of variables are written. -/
namespace Turnstile

theorem numbered_concat {number : α → Nat} {xs : List α} {y : α}
    (numbered : ∀ i x, xs[i]? = some x → number x = i + 1) (last : number y = xs.length + 1) :
    ∀ i x, (xs ++ [y])[i]? = some x → number x = i + 1 := by
  intro i x here
  rcases Nat.lt_trichotomy i xs.length with before | rfl | after
  · rw [List.getElem?_append_left before] at here
    exact numbered i x here
  · rw [List.getElem?_concat_length, Option.some.injEq] at here
    rw [← here, last]
  · rw [List.getElem?_append_right (Nat.le_of_lt after)] at here
    simp [Nat.sub_ne_zero_of_lt after] at here

theorem number_le_length {number : α → Nat} {xs : List α}
    (numbered : ∀ i x, xs[i]? = some x → number x = i + 1) (member : x ∈ xs) :
    number x ≤ xs.length := by
  obtain ⟨i, here⟩ := List.mem_iff_getElem?.mp member
  have bound := (List.getElem?_eq_some_iff.mp here).1
  rw [numbered i x here]
  exact bound

namespace Candidate

/-- Candidates come from one or two facts, which they cite. No assumption is discharged. -/
theorem exists_cited {goal : Formula} {known : List Fact} {c : Candidate}
    (member : c ∈ all goal known) : ∃ cited ⊆ known, c.sources = cited.map Fact.seq ∧
      (cited.length = 1 ∨ cited.length = 2) ∧ c.rule ≠ .conditionalProof := by
  cases yields_of_mem_all member with
  | @simplifyLeft _ _ f major | @simplifyRight _ _ f major =>
    exact ⟨[f], by simpa using major, rfl, .inl rfl, nofun⟩
  | @modusPonens _ _ f g major minor | @modusTollens _ _ f g major minor
  | @hypotheticalSyllogism _ _ _ _ f g major minor | @disjunctiveSyllogismLeft _ _ f g major minor
  | @disjunctiveSyllogismRight _ _ f g major minor | @conjunction _ _ f g major minor =>
    exact ⟨[f, g], by simp [major, minor], rfl, .inr rfl, nofun⟩

end Candidate

namespace Run

def addAll (run : Run) (entries : List (Formula × Reason)) : Run :=
  entries.foldl (fun run entry => run.add entry.1 entry.2) run

theorem addAll_append (run : Run) (es fs : List (Formula × Reason)) :
    run.addAll (es ++ fs) = (run.addAll es).addAll fs :=
  List.foldl_append

/-- Premises by their numbers, followed by assumptions. -/
def entries (premises assumptions : List Formula) : List (Formula × Reason) :=
  (premises.zipIdx 1).map (fun (f, n) => (f, .premise n)) ++
    assumptions.map fun f => (f, .assumption)

theorem addPremises_eq (run : Run) (n : Nat) (fs : List Formula) :
    run.addPremises n fs = run.addAll ((fs.zipIdx n).map fun (f, k) => (f, .premise k)) := by
  induction fs generalizing run n with
  | nil => rfl
  | cons f fs ih => exact ih _ _

theorem addAssumptions_eq (run : Run) (fs : List Formula) :
    run.addAssumptions fs = run.addAll (fs.map fun f => (f, .assumption)) := by
  induction fs generalizing run with
  | nil => rfl
  | cons f fs ih => exact ih _

theorem start_eq (premises assumptions : List Formula) (goal : Formula) :
    start premises assumptions goal =
      let run := addAll { goal := goal.canonical } (entries premises assumptions)
      { run with initial := run.facts.length } := by
  rw [start, addPremises_eq, addAssumptions_eq, entries, addAll_append]

theorem facts_start (premises assumptions : List Formula) (goal : Formula) :
    (start premises assumptions goal).facts =
      (addAll { goal := goal.canonical } (entries premises assumptions)).facts := by
  rw [start_eq]

theorem map_fst_entries (premises assumptions : List Formula) :
    (entries premises assumptions).map Prod.fst = premises ++ assumptions := by
  simp [entries, Function.comp_def]

theorem exists_mem_entries {premises assumptions : List Formula} {f : Formula}
    (member : f ∈ premises ++ assumptions) :
    ∃ reason, (f, reason) ∈ entries premises assumptions := by
  rw [← map_fst_entries] at member
  obtain ⟨⟨_, reason⟩, entry, rfl⟩ := List.mem_map.mp member
  exact ⟨reason, entry⟩

/-- An entry is a premise under its number, or it is an assumption and comes after them all. -/
theorem entry_cases {premises assumptions : List Formula} {done rest : List (Formula × Reason)}
    {f : Formula} {reason : Reason}
    (here : entries premises assumptions = done ++ (f, reason) :: rest) :
    (premises[done.length]? = some f ∧ reason = .premise (done.length + 1) ∧
      premises.take done.length = done.map Prod.fst) ∨
    (f ∈ assumptions ∧ reason = .assumption ∧ premises <+: done.map Prod.fst) := by
  have formulas : premises ++ assumptions = done.map Prod.fst ++ f :: rest.map Prod.fst := by
    rw [← map_fst_entries, here]
    simp
  have entry : (entries premises assumptions)[done.length]? = some (f, reason) := by
    rw [here]
    simp
  rcases Nat.lt_or_ge done.length premises.length with before | after
  · rw [entries, List.getElem?_append_left (by simpa using before)] at entry
    have place : premises[done.length]? = some f ∧ reason = .premise (done.length + 1) := by
      simpa [before, Nat.add_comm, eq_comm] using entry
    refine .inl ⟨place.1, place.2, ?_⟩
    have := congrArg (List.take done.length) formulas
    rwa [List.take_append_of_le_length (Nat.le_of_lt before),
      List.take_left' (List.length_map _)] at this
  · rw [entries, List.getElem?_append_right (by simpa using after)] at entry
    obtain ⟨g, assumed, same⟩ := List.mem_map.mp (List.mem_of_getElem? entry)
    obtain ⟨rfl, rfl⟩ := Prod.mk.inj same
    have starts : premises <+: done.map Prod.fst ++ g :: rest.map Prod.fst :=
      formulas ▸ List.prefix_append premises assumptions
    exact .inr ⟨assumed, rfl,
      List.prefix_of_prefix_length_le starts (List.prefix_append _ _) (by simpa using after)⟩

@[simp] theorem passes_add (run : Run) (f : Formula) (reason : Reason) :
    (run.add f reason).passes = run.passes := by
  unfold add record
  dsimp only
  split <;> rfl

@[simp] theorem passes_addAll (run : Run) (entries : List (Formula × Reason)) :
    (run.addAll entries).passes = run.passes := by
  induction entries generalizing run with
  | nil => rfl
  | cons entry entries ih => exact (ih _).trans (passes_add _ _ _)

@[simp] theorem passes_start (premises assumptions : List Formula) (goal : Formula) :
    (start premises assumptions goal).passes = 0 := by
  rw [start_eq]
  exact passes_addAll _ _

theorem extend_of_found {run : Run} (found : run.found = true) (cs : List Candidate) :
    run.extend cs = (run, false) := by
  cases cs with
  | nil => rfl
  | cons c cs => rw [extend, if_pos found]

theorem extend_cons_of_known {run : Run} {c : Candidate}
    (known : ∃ fact ∈ run.facts, fact.key = c.formula.canonical) (cs : List Candidate) :
    run.extend (c :: cs) = run.extend cs := by
  rw [extend]
  split
  next found => rw [extend_of_found found]
  next => simp only [record_of_known _ known, Bool.false_or]

theorem extend_cons_of_new {run : Run} {c : Candidate} (unfound : run.found = false)
    (unknown : ¬∃ fact ∈ run.facts, fact.key = c.formula.canonical) (cs : List Candidate) :
    run.extend (c :: cs) =
      (((run.add c.formula (.inference c.rule c.sources)).extend cs).1, true) := by
  rw [extend, if_neg (by simp [unfound]), add]
  simp only [record_of_new _ unknown, Bool.true_or]

section Growth

variable (run : Run)

theorem facts_prefix_add (f : Formula) (reason : Reason) :
    run.facts <+: (run.add f reason).facts := by
  by_cases known : ∃ fact ∈ run.facts, fact.key = f.canonical
  · have same : (run.add f reason).facts = run.facts := by rw [add_of_known reason known]
    exact same ▸ List.prefix_rfl
  · rw [add_of_new reason known]
    exact List.prefix_append _ _

theorem facts_prefix_addAll (entries : List (Formula × Reason)) :
    run.facts <+: (run.addAll entries).facts := by
  induction entries generalizing run with
  | nil => exact List.prefix_rfl
  | cons entry entries ih => exact (run.facts_prefix_add entry.1 entry.2).trans (ih _)

theorem facts_prefix_extend (cs : List Candidate) : run.facts <+: (run.extend cs).1.facts := by
  induction cs generalizing run with
  | nil => exact List.prefix_rfl
  | cons c cs ih =>
    rw [extend]
    split
    · exact List.prefix_rfl
    · exact (run.facts_prefix_add c.formula _).trans (ih _)

theorem facts_prefix_pass (goal : Formula) : run.facts <+: (run.pass goal).1.facts :=
  run.facts_prefix_extend _

/-- Candidates are reported as new exactly when there are more facts than before. -/
theorem added_extend_iff (cs : List Candidate) :
    (run.extend cs).2 = true ↔ run.facts.length < (run.extend cs).1.facts.length := by
  induction cs generalizing run with
  | nil => simp [extend]
  | cons c cs ih =>
    by_cases known : ∃ fact ∈ run.facts, fact.key = c.formula.canonical
    · rw [extend_cons_of_known known]
      exact ih run
    · cases found : run.found with
      | true => simp [extend_of_found found]
      | false =>
        have one : (run.add c.formula (.inference c.rule c.sources)).facts.length =
            run.facts.length + 1 := by
          rw [add_of_new _ known, List.length_append, List.length_singleton]
        have grows := (facts_prefix_extend
          (run.add c.formula (.inference c.rule c.sources)) cs).length_le
        rw [extend_cons_of_new found known]
        exact iff_of_true rfl (Nat.lt_of_lt_of_le (by omega) grows)

theorem facts_pass_of_not_added {goal : Formula} (nothing : (run.pass goal).2 = false) :
    (run.pass goal).1.facts = run.facts := by
  have same := mt (run.added_extend_iff _).mpr (Bool.eq_false_iff.mp nothing)
  exact ((run.facts_prefix_pass goal).eq_of_length_le (Nat.le_of_not_lt same)).symm

theorem length_lt_of_added {goal : Formula} (added : (run.pass goal).2 = true) :
    run.facts.length < (run.pass goal).1.facts.length :=
  (run.added_extend_iff _).mp added

end Growth

theorem exists_key_add (run : Run) (f : Formula) (reason : Reason) :
    ∃ fact ∈ (run.add f reason).facts, fact.key = f.canonical := by
  by_cases known : ∃ fact ∈ run.facts, fact.key = f.canonical
  · rwa [add_of_known reason known]
  · rw [add_of_new reason known]
    exact ⟨_, List.mem_append_right _ (List.mem_singleton_self _), rfl⟩

theorem exists_key_addAll (run : Run) {entries : List (Formula × Reason)} {f : Formula}
    {reason : Reason} (member : (f, reason) ∈ entries) :
    ∃ fact ∈ (run.addAll entries).facts, fact.key = f.canonical := by
  induction entries generalizing run with
  | nil => contradiction
  | cons entry entries ih =>
    rcases List.mem_cons.mp member with rfl | member
    · obtain ⟨fact, recorded, key⟩ := run.exists_key_add f reason
      exact ⟨fact, (facts_prefix_addAll _ entries).subset recorded, key⟩
    · exact ih _ member

/-- Premises and assumptions are all recorded at the start. -/
theorem exists_key_start {premises assumptions : List Formula} (goal : Formula) {f : Formula}
    (member : f ∈ premises ++ assumptions) :
    ∃ fact ∈ (start premises assumptions goal).facts, fact.key = f.canonical := by
  obtain ⟨reason, entry⟩ := exists_mem_entries member
  rw [facts_start]
  exact exists_key_addAll _ entry

/-- Unless the goal is found, all candidates are recorded. -/
theorem exists_key_extend (run : Run) {cs : List Candidate} {c : Candidate} (member : c ∈ cs)
    (unfound : (run.extend cs).1.found = false) :
    ∃ fact ∈ (run.extend cs).1.facts, fact.key = c.formula.canonical := by
  induction cs generalizing run with
  | nil => contradiction
  | cons d cs ih =>
    rw [extend] at unfound ⊢
    split at unfound
    next found => exact absurd (found.symm.trans unfound) (by decide)
    next searching =>
      rw [if_neg searching]
      rcases List.mem_cons.mp member with rfl | member
      · obtain ⟨fact, recorded, key⟩ := run.exists_key_add c.formula (.inference c.rule c.sources)
        exact ⟨fact, (facts_prefix_extend _ cs).subset recorded, key⟩
      · exact ih _ member unfound

theorem mem_of_mem_add {run : Run} {f : Formula} {reason : Reason} {fact : Fact}
    (member : fact ∈ (run.add f reason).facts) :
    fact ∈ run.facts ∨ (fact.formula, fact.reason) = (f, reason) := by
  by_cases known : ∃ fact ∈ run.facts, fact.key = f.canonical
  · rw [add_of_known reason known] at member
    exact .inl member
  · rw [add_of_new reason known] at member
    rcases List.mem_append.mp member with old | new
    · exact .inl old
    · rw [List.mem_singleton.mp new]
      exact .inr rfl

theorem mem_of_mem_addAll {run : Run} {entries : List (Formula × Reason)} {fact : Fact}
    (member : fact ∈ (run.addAll entries).facts) :
    fact ∈ run.facts ∨ (fact.formula, fact.reason) ∈ entries := by
  induction entries generalizing run with
  | nil => exact .inl member
  | cons entry entries ih =>
    rcases ih member with added | later
    · rcases mem_of_mem_add added with old | new
      · exact .inl old
      · exact .inr (new ▸ List.mem_cons_self)
    · exact .inr (List.mem_cons_of_mem _ later)

section Induction

variable {Q : Run → Prop} {goal : Formula}
variable (add : ∀ (old : List Fact) (run : Run) (c : Candidate), old ⊆ run.facts →
  c ∈ Candidate.all goal old → run.found = false → Q run →
  Q (run.add c.formula (.inference c.rule c.sources)))

include add

theorem extend_induction {old : List Fact} {cs : List Candidate} {run : Run}
    (candidates : cs ⊆ Candidate.all goal old) (known : old ⊆ run.facts) (here : Q run) :
    Q (run.extend cs).1 := by
  induction cs generalizing run with
  | nil => exact here
  | cons c cs ih =>
    obtain ⟨first, candidates⟩ := List.cons_subset.mp candidates
    rw [extend]
    split
    · exact here
    · next searching =>
      have next := add old run c known first (Bool.eq_false_iff.mpr searching) here
      exact ih candidates (List.Subset.trans known (facts_prefix_add _ _ _).subset) next

/-- What is kept when a candidate is recorded is kept by a search. The candidate comes from
the facts that were known when its pass began. -/
theorem search_induction
    (pass : ∀ (run : Run) (passes : Nat), Q run → Q { run with passes := passes })
    {run : Run} (here : Q run) (n : Nat) : Q (run.search goal n) := by
  induction n generalizing run with
  | zero => exact here
  | succ n ih =>
    have extended := extend_induction add (List.Subset.refl _) (List.Subset.refl run.facts) here
    have next : Q (run.pass goal).1 := pass _ _ extended
    rcases run.search_cases goal with ⟨_, same⟩ | ⟨_, _, stopped⟩ | ⟨_, _, onward⟩
    · exact (same _).symm ▸ here
    · exact (stopped n).symm ▸ next
    · exact (onward n).symm ▸ ih next

end Induction

theorem facts_prefix_search (run : Run) (goal : Formula) (n : Nat) :
    run.facts <+: (run.search goal n).facts := by
  refine search_induction (Q := fun later => run.facts <+: later.facts)
    ?_ (fun later passes kept => kept) List.prefix_rfl _
  intro old later c _ _ _ kept
  exact kept.trans (later.facts_prefix_add _ _)

theorem start_prefix_chain (premises assumptions : List Formula) (goal : Formula)
    (maxPasses : Int) : (start premises assumptions goal).facts <+:
      (chain premises assumptions goal maxPasses).facts :=
  facts_prefix_search _ goal _

theorem start_nil_prefix_start (premises assumptions : List Formula) (goal : Formula) :
    (start premises [] goal).facts <+: (start premises assumptions goal).facts := by
  have split : entries premises assumptions =
      entries premises [] ++ assumptions.map fun f => (f, .assumption) := by simp [entries]
  rw [facts_start, facts_start, split, addAll_append]
  exact facts_prefix_addAll _ _

theorem mem_keys_iff {run : Run} {key : Text} :
    key ∈ run.facts.map Fact.key ↔ ∃ fact ∈ run.facts, fact.key = key :=
  List.mem_map

theorem records_chain (premises assumptions : List Formula) (goal : Formula) (maxPasses : Int) :
    Records goal (fun _ => True) (chain premises assumptions goal maxPasses) :=
  .chain (fun _ _ _ _ => trivial) (fun _ _ => trivial) (fun _ _ => trivial) maxPasses

structure Indexed (run : Run) : Prop where
  distinct : (run.facts.map Fact.key).Nodup
  numbered : ∀ i fact, run.facts[i]? = some fact → fact.seq = i + 1

namespace Indexed

theorem add {run : Run} (indexed : Indexed run) (f : Formula) (reason : Reason) :
    Indexed (run.add f reason) := by
  by_cases known : ∃ fact ∈ run.facts, fact.key = f.canonical
  · rwa [add_of_known reason known]
  · rw [add_of_new reason known]
    refine ⟨?_, ?_⟩
    · simpa [List.nodup_append, indexed.distinct] using known
    · exact numbered_concat indexed.numbered rfl

theorem addAll {run : Run} (indexed : Indexed run) (entries : List (Formula × Reason)) :
    Indexed (run.addAll entries) := by
  induction entries generalizing run with
  | nil => exact indexed
  | cons entry entries ih => exact ih (indexed.add entry.1 entry.2)

theorem start (premises assumptions : List Formula) (goal : Formula) :
    Indexed (Run.start premises assumptions goal) := by
  have empty : Indexed { goal := goal.canonical } := ⟨List.nodup_nil, by simp⟩
  have full := empty.addAll (entries premises assumptions)
  rw [start_eq]
  exact ⟨full.distinct, full.numbered⟩

theorem chain (premises assumptions : List Formula) (goal : Formula) (maxPasses : Int) :
    Indexed (Turnstile.chain premises assumptions goal maxPasses) := by
  refine search_induction ?_ ?_ (start premises assumptions goal) _
  · intro old run c _ _ _ indexed
    exact indexed.add _ _
  · intro run passes indexed
    exact ⟨indexed.distinct, indexed.numbered⟩

theorem find?_key {run : Run} (indexed : Indexed run) (member : fact ∈ run.facts) :
    run.find? fact.key = some fact := by
  cases found : run.find? fact.key with
  | none => simpa using List.find?_eq_none.mp found fact member
  | some other =>
    have same : other.key = fact.key := by simpa using List.find?_some found
    rw [List.inj_on_of_nodup_map indexed.distinct (List.mem_of_find?_eq_some found) member same]

theorem exists_fact? {run : Run} (indexed : Indexed run) {f : Formula}
    (known : ∃ fact ∈ run.facts, fact.key = f.canonical) :
    ∃ fact ∈ run.facts, fact.key = f.canonical ∧ run.fact? f = some fact := by
  obtain ⟨fact, recorded, key⟩ := known
  refine ⟨fact, recorded, key, ?_⟩
  rw [fact?, ← key]
  exact indexed.find?_key recorded

theorem getElem?_seq {run : Run} (indexed : Indexed run) (member : fact ∈ run.facts) :
    run.facts[fact.seq - 1]? = some fact := by
  obtain ⟨i, here⟩ := List.mem_iff_getElem?.mp member
  rw [indexed.numbered i fact here]
  exact here

/-- The numbers that a fact cites lead to the texts of the facts that are meant. -/
theorem sourceKeys_eq {run : Run} (indexed : Indexed run) {fact : Fact} {cited : List Fact}
    (known : cited ⊆ run.facts) (sources : fact.reason.sources = cited.map Fact.seq) :
    run.sourceKeys fact = cited.map Fact.key := by
  calc run.sourceKeys fact
      = cited.filterMap fun f => (run.facts[f.seq - 1]?).map Fact.key := by
        rw [sourceKeys, sources]
        exact List.filterMap_map
    _ = cited.filterMap fun f => some f.key := by
        apply List.filterMap_congr
        intro f member
        rw [indexed.getElem?_seq (known member), Option.map_some]
    _ = cited.map Fact.key := by simp

end Indexed

structure CitesEarlier (run : Run) : Prop extends Indexed run where
  earlier : ∀ fact ∈ run.facts, ∀ n ∈ fact.reason.sources, 0 < n ∧ n < fact.seq

namespace CitesEarlier

theorem add {run : Run} (cites : CitesEarlier run) {reason : Reason}
    (known : ∀ n ∈ reason.sources, ∃ fact ∈ run.facts, fact.seq = n) (f : Formula) :
    CitesEarlier (run.add f reason) := by
  refine ⟨cites.toIndexed.add f reason, ?_⟩
  by_cases recorded : ∃ fact ∈ run.facts, fact.key = f.canonical
  · rw [add_of_known reason recorded]
    exact cites.earlier
  · rw [add_of_new reason recorded]
    intro fact member n source
    rcases List.mem_append.mp member with old | new
    · exact cites.earlier fact old n source
    · obtain rfl := List.mem_singleton.mp new
      obtain ⟨cited, isKnown, rfl⟩ := known n source
      obtain ⟨i, here⟩ := List.mem_iff_getElem?.mp isKnown
      have inside := (List.getElem?_eq_some_iff.mp here).1
      rw [cites.numbered i cited here]
      exact ⟨Nat.succ_pos i, Nat.succ_lt_succ inside⟩

theorem addAll {run : Run} (cites : CitesEarlier run) {entries : List (Formula × Reason)}
    (uncited : ∀ entry ∈ entries, entry.2.sources = []) : CitesEarlier (run.addAll entries) := by
  induction entries generalizing run with
  | nil => exact cites
  | cons entry entries ih =>
    obtain ⟨first, uncited⟩ := List.forall_mem_cons.mp uncited
    exact ih (cites.add (by simp [first]) entry.1) uncited

theorem chain (premises assumptions : List Formula) (goal : Formula) (maxPasses : Int) :
    CitesEarlier (Turnstile.chain premises assumptions goal maxPasses) := by
  have uncited : ∀ entry ∈ entries premises assumptions, entry.2.sources = [] := by
    simp only [entries, List.forall_mem_append, List.forall_mem_map]
    exact ⟨fun _ _ => rfl, fun _ _ => rfl⟩
  have empty : CitesEarlier { goal := goal.canonical } := ⟨⟨List.nodup_nil, by simp⟩, by simp⟩
  have full := empty.addAll uncited
  have start : CitesEarlier (Run.start premises assumptions goal) := by
    rw [start_eq]
    exact ⟨⟨full.distinct, full.numbered⟩, full.earlier⟩
  refine search_induction ?_ ?_ start _
  · intro old run c known candidate _ cites
    refine cites.add (fun n source => ?_) c.formula
    obtain ⟨cited, isKnown, sources, _⟩ := Candidate.exists_cited candidate
    obtain ⟨fact, isCited, number⟩ := List.mem_map.mp (sources ▸ source)
    exact ⟨fact, known (isKnown isCited), number⟩
  · intro run passes cites
    exact ⟨⟨cites.distinct, cites.numbered⟩, cites.earlier⟩

end CitesEarlier

theorem initial_add (run : Run) (f : Formula) (reason : Reason) :
    (run.add f reason).initial = run.initial := by
  unfold add record
  dsimp only
  split <;> rfl

theorem initial_chain (premises assumptions : List Formula) (goal : Formula) (maxPasses : Int) :
    (chain premises assumptions goal maxPasses).initial =
      (start premises assumptions goal).facts.length := by
  refine search_induction
    (Q := fun run => run.initial = (start premises assumptions goal).facts.length) ?_
    (fun _ _ kept => kept) rfl _
  intro old run c _ _ _ kept
  rw [initial_add, kept]

/-- A goal among the premises and assumptions needs no search. -/
theorem chain_of_found {premises assumptions : List Formula} {goal : Formula}
    (found : (start premises assumptions goal).found = true) (maxPasses : Int) :
    chain premises assumptions goal maxPasses = start premises assumptions goal :=
  search_of_found found _

/-- Any other goal is the last fact, as the search stops with it. -/
theorem last_of_found {premises assumptions : List Formula} {goal : Formula} {maxPasses : Int}
    (unfound : (start premises assumptions goal).found = false)
    (found : (chain premises assumptions goal maxPasses).found = true) :
    ∃ last, (chain premises assumptions goal maxPasses).facts.getLast? = some last ∧
      last.key = (chain premises assumptions goal maxPasses).goal := by
  refine search_induction (Q := fun run => run.found = true →
    ∃ last, run.facts.getLast? = some last ∧ last.key = run.goal) ?_ (fun _ _ ends => ends)
    (fun found => ?_) _ found
  · intro old run c _ _ unfound _ found
    by_cases known : ∃ fact ∈ run.facts, fact.key = c.formula.canonical
    · rw [add_of_known _ known, unfound] at found
      contradiction
    · rw [add_of_new _ known] at found ⊢
      refine ⟨_, List.getLast?_concat, ?_⟩
      simpa [unfound] using found
  · rw [unfound] at found
    contradiction

end Run

end Turnstile
