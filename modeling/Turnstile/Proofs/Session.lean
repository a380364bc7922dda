import Turnstile.Proofs.ExitCode
import Turnstile.Proofs.Flags
import Turnstile.Proofs.Sequent

/-! The lines of a session change nothing but its two switches, and each of these is turned by
one line only. A line with a sequent is answered as a check of this sequent would answer it,
with the same limits and the switches that are on. The log of a session is not compared. -/
namespace Turnstile

namespace Session

theorem hasSign_iff {s : Text} : hasSign s = true ↔ [0x7C, 0x2D] <:+: s := by
  fun_induction hasSign s with
  | case1 s => exact iff_of_true rfl ⟨[], s, rfl⟩
  | case2 b s other ih =>
    have apart : ¬[0x7C, 0x2D] <+: b :: s := by
      rintro ⟨rest, text⟩
      obtain ⟨rfl, rfl⟩ := List.cons.inj text
      exact other rest rfl rfl
    rw [ih, List.infix_cons_iff, or_iff_right apart]
  | case3 => simp

/-- Whether an odd number of lines are a given one, up to blanks around them. -/
def turned (word : Text) (lines : List Text) : Bool :=
  lines.countP (fun line => line.trim = word) % 2 = 1

theorem turned_cons (word line : Text) (lines : List Text) :
    turned word (line :: lines) = (decide (line.trim = word) ^^ turned word lines) := by
  by_cases same : line.trim = word
  · have step : (lines.countP (fun line => line.trim = word) + 1) % 2 = 1 ↔
        ¬lines.countP (fun line => line.trim = word) % 2 = 1 := by omega
    simp only [turned, List.countP_cons, same, decide_true, if_true, Bool.true_xor, step,
      decide_not]
  · simp [turned, same]

def after (s : Session) (lines : List Text) : Session :=
  { s with
    withTable := s.withTable ^^ turned ":table" lines
    trim := s.trim ^^ turned ":trim" lines }

section Reply

variable {solver : Solver}

/-- A sequent neither changes nor ends a session, whether it can be read or not. -/
theorem replySequent_keeps (s : Session) (line : Text) :
    (s.replySequent line solver).session = s ∧ (s.replySequent line solver).continues = true := by
  rw [replySequent]
  split
  · exact ⟨rfl, rfl⟩
  · split <;> exact ⟨rfl, rfl⟩

theorem session_replyFormula (s : Session) (line : Text) : (s.replyFormula line).session = s := by
  rw [replyFormula]
  split <;> rfl

/-- What a line does to a session. -/
theorem session_eval (s : Session) (line : Text) : (s.eval line solver).session =
    { s with
      withTable := s.withTable ^^ decide (line.trim = ":table")
      trim := s.trim ^^ decide (line.trim = ":trim") } := by
  have still (noTable : line.trim ≠ ":table") (noTrim : line.trim ≠ ":trim") :
      s = { s with
        withTable := s.withTable ^^ decide (line.trim = ":table")
        trim := s.trim ^^ decide (line.trim = ":trim") } := by
    simp [noTable, noTrim]
  have stillAt {word : Text} (same : line.trim = word) (noTable : word ≠ ":table")
      (noTrim : word ≠ ":trim") := still (same ▸ noTable) (same ▸ noTrim)
  rw [eval]
  split_ifs with empty quit help table trim sign
  · exact stillAt (List.isEmpty_iff.mp empty) (by decide) (by decide)
  · rcases quit with same | same | same <;> exact stillAt same (by decide) (by decide)
  · rcases help with same | same <;> exact stillAt same (by decide) (by decide)
  · have trimOff : decide (line.trim = ":trim") = false := by rw [table]; rfl
    rw [decide_eq_true table, trimOff, Bool.xor_true, Bool.xor_false]
  · have tableOff : decide (line.trim = ":table") = false := by rw [trim]; rfl
    rw [decide_eq_true trim, tableOff, Bool.xor_true, Bool.xor_false]
  · rw [(replySequent_keeps s line.trim).1]
    exact still table trim
  · rw [session_replyFormula]
    exact still table trim

theorem after_cons (s : Session) (line : Text) (lines : List Text) :
    s.after (line :: lines) = (s.eval line solver).session.after lines := by
  simp only [session_eval, after, turned_cons, Bool.xor_assoc]

theorem run_append (s : Session) (lines more : List Text)
    (going : ∀ reply ∈ s.run lines solver, reply.continues = true) :
    s.run (lines ++ more) solver = s.run lines solver ++ (s.after lines).run more solver := by
  induction lines generalizing s with
  | nil => simp [run, after, turned]
  | cons line lines ih =>
    rw [run, List.forall_mem_cons] at going
    obtain ⟨goes, going⟩ := going
    rw [goes, if_pos rfl] at going
    rw [List.cons_append, run, run, goes, if_pos rfl, ih _ going, @after_cons solver]
    rfl

/-- A line with the sign of a sequent is read as one, and is none of the words that a session
knows. -/
theorem eval_of_sign (s : Session) {line : Text} (sign : [0x7C, 0x2D] <:+: line) :
    s.eval line solver = s.replySequent line.trim solver := by
  have signed := hasSign_iff.mpr (Argument.sign_infix_trim sign)
  have other {word : Text} (plain : hasSign word = false) : line.trim ≠ word := by
    rintro same
    rw [same, plain] at signed
    contradiction
  have nonempty : ¬line.trim.isEmpty = true :=
    fun empty => other rfl (List.isEmpty_iff.mp empty)
  have noQuit : ¬(line.trim = ":quit" ∨ line.trim = ":q" ∨ line.trim = ":exit") :=
    not_or.mpr ⟨other rfl, not_or.mpr ⟨other rfl, other rfl⟩⟩
  have noHelp : ¬(line.trim = ":help" ∨ line.trim = ":h") := not_or.mpr ⟨other rfl, other rfl⟩
  simp only [eval]
  rw [if_neg nonempty, if_neg noQuit, if_neg noHelp, if_neg (other rfl), if_neg (other rfl),
    if_pos signed]

end Reply

end Session

namespace CommandLine

section Sequent

variable {host : Host} {limits : Limits} {table trim : Bool} {line : Text} {a : Argument}

theorem gather_of_refused {e : Argument.SequentError}
    (refused : Argument.ofSequent line = .error e) :
    gather host (checkSettings limits table trim) [line] = .error (.sequent e) := by
  have words : ofSequents [line] = .error (.sequent e) := by
    simp only [ofSequents, List.mapM_cons, refused]
    rfl
  simp only [gather, words]
  rfl

theorem gather_of_accepted (accepted : Argument.ofSequent line = .ok a) :
    gather host (checkSettings limits table trim) [line] = .ok [a] := by
  have words : ofSequents [line] = .ok [a] := by
    simp only [ofSequents, List.mapM_cons, accepted, List.mapM_nil]
    rfl
  simp only [gather, words]
  rfl

theorem limits_checkSettings : (checkSettings limits table trim).limits = limits := rfl

theorem check_of_analyzed {r : Report} (analyzed : analyze a limits host.solver = .ok r) :
    (check host (checkSettings limits table trim) [a]).output = r.page table trim ∧
      (check host (checkSettings limits table trim) [a]).code ≠ 2 := by
  have reports : analyzeAll limits host.solver [a] = ([r], none) := by
    simp only [analyzeAll, analyzed]
  simp only [check, report, limits_checkSettings, reports]
  refine ⟨rfl, ?_⟩
  rw [code]
  split <;> decide

theorem check_of_unanalyzed {e : Argument.Invalid}
    (refused : analyze a limits host.solver = .error e) :
    check host (checkSettings limits table trim) [a] = .failed (.argument a.name e) := by
  have reports : analyzeAll limits host.solver [a] = ([], some (.argument a.name e)) := by
    simp only [analyzeAll, refused]
  simp only [check, report, limits_checkSettings, reports]
  rfl

end Sequent

end CommandLine

namespace Session

section Agreement

variable {host : Host} {limits : Limits} {line : Text} {table trim : Bool}
variable (asked : Invocation.ofWords words =
  .ok (.run .check (checkSettings limits table trim) [line]))
include asked

theorem agrees_of_analyzed {a : Argument} {r : Report} (accepted : Argument.ofSequent line = .ok a)
    (analyzed : analyze a limits host.solver = .ok r) :
    (replySequent ⟨limits, table, trim⟩ line.trim host.solver).output = r.page table trim ∧
      (CommandLine.execute host words).output = r.page table trim ∧
      (CommandLine.execute host words).code ≠ 2 := by
  have trimmed := Argument.ofSequent_trim accepted
  refine ⟨by simp only [replySequent, trimmed, analyzed], ?_⟩
  simp only [CommandLine.execute, asked, CommandLine.perform,
    CommandLine.gather_of_accepted accepted]
  exact CommandLine.check_of_analyzed analyzed

theorem agrees_of_refused
    (refused : ¬∃ a r, Argument.ofSequent line = .ok a ∧ analyze a limits host.solver = .ok r)
    (trimmed : line.trim = line) :
    (replySequent ⟨limits, table, trim⟩ line.trim host.solver).output =
        (CommandLine.execute host words).errors ∧
      (CommandLine.execute host words).code = 2 ∧ (CommandLine.execute host words).output = [] := by
  rw [trimmed]
  simp only [CommandLine.execute, asked, CommandLine.perform]
  cases read : Argument.ofSequent line with
  | error e =>
    simp only [replySequent, read, CommandLine.gather_of_refused read]
    exact ⟨rfl, rfl, rfl⟩
  | ok a =>
    have unnamed : a.name = [] := by
      obtain ⟨l, r, _, _, _, rfl, _⟩ := Argument.ofSequent_eq_ok_iff.mp read
      rfl
    cases analyzed : analyze a limits host.solver with
    | ok r => exact absurd ⟨a, r, read, analyzed⟩ refused
    | error e =>
      simp only [replySequent, read, analyzed, CommandLine.gather_of_accepted read,
        CommandLine.check_of_unanalyzed analyzed, unnamed]
      exact ⟨rfl, rfl, rfl⟩

end Agreement

/-- After any lines that do not end a session, a line with the sign of a sequent leaves the
session as it is. If the sequent can be read and analysed, the answer is what a check of it
writes, with the same limits and with the switches that were turned on by an odd number of
lines. Otherwise the answer to a line without blanks around it is the error of that check. -/
theorem session_agrees_with_check (host : Host) (limits : Limits)
    (fits : Text.Fits limits.maxPasses ∧ Text.Fits limits.maxVars)
    (allowed : limits.maxVars ≤ Table.greatestLimit) (earlier : List Text) (line : Text)
    (going : ∀ reply ∈ ({ limits := limits } : Session).run earlier host.solver,
      reply.continues = true)
    (sign : [0x7C, 0x2D] <:+: line) :
    let table := turned ":table" earlier
    let trim := turned ":trim" earlier
    let reply := (⟨limits, table, trim⟩ : Session).eval line host.solver
    let checked := CommandLine.execute host (checkWords limits table trim [line])
    ({ limits := limits } : Session).run (earlier ++ [line]) host.solver =
      ({ limits := limits } : Session).run earlier host.solver ++ [reply] ∧
    reply.session = ⟨limits, table, trim⟩ ∧ reply.continues = true ∧
    (∀ a r, Argument.ofSequent line = .ok a → analyze a limits host.solver = .ok r →
      reply.output = r.page table trim ∧ checked.output = r.page table trim ∧ checked.code ≠ 2) ∧
    ((¬∃ a r, Argument.ofSequent line = .ok a ∧ analyze a limits host.solver = .ok r) →
      line.trim = line →
      reply.output = checked.errors ∧ checked.code = 2 ∧ checked.output = []) := by
  intro table trim reply checked
  have asked := ofWords_checkWords fits.1 fits.2 table trim [line] allowed
  have answer : reply = replySequent ⟨limits, table, trim⟩ line.trim host.solver :=
    eval_of_sign _ sign
  obtain ⟨kept, goes⟩ : reply.session = ⟨limits, table, trim⟩ ∧ reply.continues = true :=
    answer ▸ replySequent_keeps _ _
  have now : ({ limits := limits } : Session).after earlier = ⟨limits, table, trim⟩ := by
    simp only [after, Bool.false_xor]
    rfl
  refine ⟨?_, kept, goes, fun a r accepted analyzed => ?_, fun refused trimmed => ?_⟩
  · rw [run_append _ _ _ going, now]
    simp only [run, ite_self]
    rfl
  · rw [answer]
    exact agrees_of_analyzed asked accepted analyzed
  · rw [answer]
    exact agrees_of_refused asked refused trimmed

/-- Errors do not disturb the switches, and blanks around the words that turn them do not matter:
the next sequent is answered with a table and without trimming, and the next error as well. -/
theorem session_agrees_with_check_after_errors :
    let host : Host := { fileContent := fun _ => .error [], runName := fun _ => [] }
    let limits : Limits := { maxVars := 4, maxPasses := 50 }
    let earlier : List Text := [" :table ", "P &", ":trim", "Q |-", ":trim"]
    let now : Session := { limits := limits, withTable := true }
    (∀ reply ∈ ({ limits := limits } : Session).run earlier, reply.continues = true) ∧
    (∃ r : Report, (now.eval " P -> Q, P |- Q").output = r.page true false ∧
      (CommandLine.execute host (checkWords limits true false [" P -> Q, P |- Q"])).output =
        r.page true false) ∧
    (now.eval "Q |- (P").output =
      (CommandLine.execute host (checkWords limits true false ["Q |- (P"])).errors ∧
    (CommandLine.execute host (checkWords limits true false ["Q |- (P"])).code = 2 := by
  intro host limits earlier now
  have going : ∀ reply ∈ ({ limits := limits } : Session).run earlier, reply.continues = true := by
    decide +kernel
  have fits : Text.Fits limits.maxPasses ∧ Text.Fits limits.maxVars :=
    ⟨⟨by decide, by decide⟩, ⟨by decide, by decide⟩⟩
  have accepted : Argument.ofSequent " P -> Q, P |- Q" =
      .ok { premises := ["P -> Q", "P"], conclusion := "Q" } := by decide +kernel
  have parsed : ({ premises := ["P -> Q", "P"], conclusion := "Q" } : Argument).parse =
      .ok ⟨[.implies (.var "P") (.var "Q"), .var "P"], .var "Q"⟩ := by decide +kernel
  have unclosed : Argument.ofSequent "Q |- (P" = .ok { premises := ["Q"], conclusion := "(P" } ∧
      ({ premises := ["Q"], conclusion := "(P" } : Argument).parse =
        .error (.badConclusion (.ungrammatical ⟨"(P", .unclosed, none⟩)) := by
    decide +kernel
  have refused : ¬∃ a r, Argument.ofSequent "Q |- (P" = .ok a ∧ analyze a limits = .ok r := by
    rintro ⟨a, r, read, analyzed⟩
    obtain rfl := Except.ok.inj (unclosed.1.symm.trans read)
    obtain ⟨_, parsed, _⟩ := parse_of_analyze analyzed
    rw [unclosed.2] at parsed
    contradiction
  have first := session_agrees_with_check host limits fits (by decide) earlier " P -> Q, P |- Q"
    going (by decide)
  have second := session_agrees_with_check host limits fits (by decide) earlier "Q |- (P"
    going (by decide)
  have switches : turned ":table" earlier = true ∧ turned ":trim" earlier = false := by
    decide +kernel
  rw [switches.1, switches.2] at first second
  obtain ⟨r, analyzed, _⟩ := exists_analyze parsed limits host.solver
  obtain ⟨answered, checked, _⟩ := first.2.2.2.1 _ r accepted analyzed
  obtain ⟨error, code, _⟩ := second.2.2.2.2 refused (by decide +kernel)
  exact ⟨going, ⟨r, answered, checked⟩, error, code⟩

end Session

end Turnstile
