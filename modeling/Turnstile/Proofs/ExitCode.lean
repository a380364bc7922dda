import Turnstile.CommandLine.Run
import Turnstile.Proofs.Report

/-! The code of a check is 2 unless the texts of all its arguments are formulas, and says
otherwise whether some argument has a model of its premises in which its conclusion is false.
Limits, the form of the output and the order of the arguments do not matter. How the words of a
command line are read is a hypothesis here. -/
namespace Turnstile

def Argument.Refuted (a : Argument) : Prop :=
  ∃ parsed, a.parse = .ok parsed ∧
    ∃ v, Satisfies v parsed.premises ∧ parsed.conclusion.eval v = false

namespace CommandLine

inductive Gathers (host : Host) (s : Settings) (sequents : List Text) : List Argument → Prop
  | intro (file : ofFile host s = .ok fromFile) (builtin : ofExample s = .ok fromExample)
    (flags : ofFlags s = .ok fromFlags) (words : ofSequents sequents = .ok fromSequents)
    (nonempty : fromFile ++ fromExample ++ fromFlags ++ fromSequents ≠ []) :
    Gathers host s sequents (fromFile ++ fromExample ++ fromFlags ++ fromSequents)

theorem gather_eq_ok_iff {host : Host} {s : Settings} {sequents : List Text}
    {batch : List Argument} :
    gather host s sequents = .ok batch ↔ Gathers host s sequents batch := by
  simp only [gather, bind_eq_ok_iff]
  constructor
  · rintro ⟨fromFile, file, fromExample, builtin, fromFlags, flags, fromSequents, words, result⟩
    split at result
    · contradiction
    · next nonempty =>
      obtain rfl := Except.ok.inj result
      exact ⟨file, builtin, flags, words, nonempty⟩
  · rintro ⟨file, builtin, flags, words, nonempty⟩
    refine ⟨_, file, _, builtin, _, flags, _, words, ?_⟩
    split
    · contradiction
    · rfl

section Analyses

variable {limits : Limits} {solver : Solver} {batch : List Argument}

/-- An argument that is refused ends the analysis of its batch, wherever it stands. -/
theorem analyzeAll_of_refused {a : Argument} {e : Argument.Invalid} (member : a ∈ batch)
    (refused : a.parse = .error e) :
    ∃ reports failure, analyzeAll limits solver batch = (reports, some failure) := by
  induction batch with
  | nil => contradiction
  | cons first rest ih =>
    rw [analyzeAll]
    cases analysed : analyze first limits solver with
    | error e => exact ⟨[], _, rfl⟩
    | ok r =>
      rcases List.mem_cons.mp member with rfl | member
      · rw [analyze, refused] at analysed
        contradiction
      · obtain ⟨reports, failure, result⟩ := ih member
        exact ⟨r :: reports, failure, by rw [result]⟩

theorem analyzeAll_of_accepted (accepted : ∀ a ∈ batch, ∃ parsed, a.parse = .ok parsed) :
    ∃ reports, analyzeAll limits solver batch = (reports, none) ∧
      List.Forall₂ (fun a r => analyze a limits solver = .ok r) batch reports := by
  induction batch with
  | nil => exact ⟨[], rfl, .nil⟩
  | cons first rest ih =>
    obtain ⟨⟨parsed, acceptedFirst⟩, accepted⟩ := List.forall_mem_cons.mp accepted
    obtain ⟨r, analysed, _⟩ := exists_analyze acceptedFirst limits solver
    obtain ⟨reports, result, related⟩ := ih accepted
    exact ⟨r :: reports, by rw [analyzeAll, analysed, result], .cons analysed related⟩

/-- The verdict of a report says whether its argument is refuted. -/
theorem invalid_iff_refuted {a : Argument} {r : Report} (correct : solver.Correct)
    (analysed : analyze a limits solver = .ok r) : r.verdict = .invalid ↔ a.Refuted := by
  obtain ⟨parsed, accepted, describes⟩ := parse_of_analyze analysed
  obtain ⟨premisesNamed, conclusionNamed⟩ := Argument.named_of_parse accepted
  have right := describes.right correct premisesNamed conclusionNamed
  constructor
  · intro invalid
    obtain ⟨m, found⟩ := Option.ne_none_iff_exists'.mp (right.counterexample_iff.mpr invalid)
    obtain ⟨_, holds, fails⟩ := right.refutes found
    exact ⟨parsed, accepted, m.value, holds, fails⟩
  · rintro ⟨parsed', accepted', v, holds, fails⟩
    obtain rfl := Except.ok.inj (accepted.symm.trans accepted')
    exact right.invalid_iff.mpr ⟨⟨v, holds⟩, not_entails_of_fails holds fails⟩

theorem any_invalid_iff {reports : List Report} (correct : solver.Correct)
    (related : List.Forall₂ (fun a r => analyze a limits solver = .ok r) batch reports) :
    reports.any (·.verdict = .invalid) = true ↔ ∃ a ∈ batch, a.Refuted := by
  simp only [List.any_eq_true, decide_eq_true_eq]
  constructor
  · rintro ⟨r, member, invalid⟩
    obtain ⟨a, inBatch, analysed⟩ := exists_related_left related member
    exact ⟨a, inBatch, (invalid_iff_refuted correct analysed).mp invalid⟩
  · rintro ⟨a, inBatch, refuted⟩
    obtain ⟨r, member, analysed⟩ := exists_related_left related.flip inBatch
    exact ⟨r, member, (invalid_iff_refuted correct analysed).mpr refuted⟩

end Analyses

theorem check_of_refused (host : Host) (s : Settings) {batch : List Argument} {a : Argument}
    {e : Argument.Invalid} (member : a ∈ batch) (refused : a.parse = .error e) :
    (check host s batch).code = 2 ∧ (check host s batch).output = [] := by
  obtain ⟨reports, failure, result⟩ := analyzeAll_of_refused member refused
  rw [check, report, result]
  exact ⟨rfl, rfl⟩

theorem code_check_of_accepted {host : Host} (correct : host.solver.Correct) (s : Settings)
    {batch : List Argument} (accepted : ∀ a ∈ batch, ∃ parsed, a.parse = .ok parsed) :
    ((∃ a ∈ batch, a.Refuted) → (check host s batch).code = 1) ∧
    ((¬∃ a ∈ batch, a.Refuted) → (check host s batch).code = 0) := by
  obtain ⟨reports, result, related⟩ := analyzeAll_of_accepted accepted
  rw [← any_invalid_iff correct related, check, report, result]
  exact ⟨fun refuted => if_pos refuted, fun unrefuted => if_neg unrefuted⟩

/-- The code of a check depends on the members of its batch only. -/
theorem code_check_congr {host host' : Host} (correct : host.solver.Correct)
    (correct' : host'.solver.Correct) (s s' : Settings) {batch batch' : List Argument}
    (same : ∀ a, a ∈ batch' ↔ a ∈ batch) :
    (check host' s' batch').code = (check host s batch).code := by
  by_cases refused : ∃ a ∈ batch, ∃ e, a.parse = .error e
  · obtain ⟨a, member, e, refused⟩ := refused
    rw [(check_of_refused host s member refused).1,
      (check_of_refused host' s' ((same a).mpr member) refused).1]
  · have accepted : ∀ a ∈ batch, ∃ parsed, a.parse = .ok parsed := by
      intro a member
      cases result : a.parse with
      | error e => exact absurd ⟨a, member, e, result⟩ refused
      | ok parsed => exact ⟨parsed, rfl⟩
    have codes := code_check_of_accepted correct s accepted
    have codes' := code_check_of_accepted correct' s' fun a member =>
      accepted a ((same a).mp member)
    simp only [same] at codes'
    by_cases refuted : ∃ a ∈ batch, a.Refuted
    · rw [codes.1 refuted, codes'.1 refuted]
    · rw [codes.2 refuted, codes'.2 refuted]

section Execute

variable {host : Host} {words sequents : List Text} {s : Settings} {batch : List Argument}
variable (asked : Invocation.ofWords words = .ok (.run .check s sequents))

include asked

theorem execute_of_gathers (gathers : Gathers host s sequents batch) :
    execute host words = check host s batch := by
  simp only [execute, asked, perform, gather_eq_ok_iff.mpr gathers]

theorem execute_of_not_gathers (ungathered : ∀ batch, ¬Gathers host s sequents batch) :
    (execute host words).code = 2 ∧ (execute host words).output = [] := by
  simp only [execute, asked, perform]
  cases result : gather host s sequents with
  | error e => exact ⟨rfl, rfl⟩
  | ok batch => exact absurd (gather_eq_ok_iff.mp result) (ungathered batch)

end Execute

/-- With a correct solver, whatever the limits and the form of the output, a check of a batch
ends with code 2 and no output if the texts of some argument are not all formulas, else with
code 1 if some argument is refuted, and else with code 0. The order of the batch does not
matter for the code. Nor is there output, or another code than 2, where no batch is gathered. -/
theorem check_code_means_entailment (host : Host) (correct : host.solver.Correct)
    (words sequents : List Text) (s : Settings)
    (asked : Invocation.ofWords words = .ok (.run .check s sequents)) :
    ((∀ batch, ¬Gathers host s sequents batch) →
      (execute host words).code = 2 ∧ (execute host words).output = []) ∧
    ∀ batch, Gathers host s sequents batch →
      ((∃ a ∈ batch, ∃ e, a.parse = .error e) →
        (execute host words).code = 2 ∧ (execute host words).output = []) ∧
      ((∀ a ∈ batch, ∃ parsed, a.parse = .ok parsed) →
        ((∃ a ∈ batch, a.Refuted) → (execute host words).code = 1) ∧
        ((¬∃ a ∈ batch, a.Refuted) → (execute host words).code = 0)) ∧
      ∀ (host' : Host) (words' sequents' : List Text) (s' : Settings) (batch' : List Argument),
        host'.solver.Correct → Invocation.ofWords words' = .ok (.run .check s' sequents') →
        Gathers host' s' sequents' batch' → batch'.Perm batch →
        (execute host' words').code = (execute host words).code := by
  refine ⟨execute_of_not_gathers asked, fun batch gathers => ?_⟩
  rw [execute_of_gathers asked gathers]
  refine ⟨?_, ?_, ?_⟩
  · rintro ⟨a, member, e, refused⟩
    exact check_of_refused host s member refused
  · exact code_check_of_accepted correct s
  · intro host' words' sequents' s' batch' correct' asked' gathers' perm
    rw [execute_of_gathers asked' gathers']
    exact code_check_congr correct correct' s s' fun a => perm.mem_iff

/-- `Q |- P` has code 1 beside a valid argument, and code 2 before one that is no formula. -/
theorem check_code_means_entailment_in_batches :
    let host : Host := { fileContent := fun _ => .error [], runName := fun _ => [] }
    (execute host ["check", "P |- P", "Q |- P"]).code = 1 ∧
    (execute host ["check", "--max-vars=1", "Q |- P", "P |- (P"]).code = 2 ∧
    (execute host ["check", "--max-vars=1", "Q |- P", "P |- (P"]).output = [] := by
  intro host
  have asked : Invocation.ofWords ["check", "P |- P", "Q |- P"] =
      .ok (.run .check {} ["P |- P", "Q |- P"]) := by decide +kernel
  have gathers : Gathers host {} ["P |- P", "Q |- P"]
      [{ premises := ["P"], conclusion := "P" }, { premises := ["Q"], conclusion := "P" }] :=
    gather_eq_ok_iff.mp (by decide +kernel)
  have accepted : ∀ a ∈ [({ premises := ["P"], conclusion := "P" } : Argument),
      { premises := ["Q"], conclusion := "P" }], ∃ parsed, a.parse = .ok parsed := by
    refine List.forall_mem_cons.mpr ⟨⟨⟨[.var "P"], .var "P"⟩, by decide +kernel⟩, ?_⟩
    exact List.forall_mem_singleton.mpr ⟨⟨[.var "Q"], .var "P"⟩, by decide +kernel⟩
  have refuted : Argument.Refuted { premises := ["Q"], conclusion := "P" } :=
    ⟨⟨[.var "Q"], .var "P"⟩, by decide +kernel, fun x => x = Text.ofString "Q",
      satisfies_singleton.mpr (by decide +kernel), by decide +kernel⟩
  have askedBad : Invocation.ofWords ["check", "--max-vars=1", "Q |- P", "P |- (P"] =
      .ok (.run .check { maxVars := 1 } ["Q |- P", "P |- (P"]) := by decide +kernel
  have gathersBad : Gathers host { maxVars := 1 } ["Q |- P", "P |- (P"]
      [{ premises := ["Q"], conclusion := "P" }, { premises := ["P"], conclusion := "(P" }] :=
    gather_eq_ok_iff.mp (by decide +kernel)
  have refused : ({ premises := ["P"], conclusion := "(P" } : Argument).parse =
      .error (.badConclusion (.ungrammatical ⟨"(P", .unclosed, none⟩)) := by
    decide +kernel
  have first := (check_code_means_entailment host Solver.search_correct _ _ _ asked).2 _ gathers
  have second :=
    (check_code_means_entailment host Solver.search_correct _ _ _ askedBad).2 _ gathersBad
  exact ⟨(first.2.1 accepted).1 ⟨_, by simp, refuted⟩, second.1 ⟨_, by simp, _, refused⟩⟩

end CommandLine

end Turnstile
