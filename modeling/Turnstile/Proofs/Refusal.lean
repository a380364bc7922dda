import Turnstile.Proofs.Grammar
import Turnstile.Proofs.Tokens

/-! A text whose tokens are no formula is refused at the first token after which no formula can
go on, or at its end. What was read before can always be completed: an operand is added if one
is missing, and each open parenthesis is closed. Texts that are no encodings are refused earlier
and are not treated here. -/
namespace Turnstile

/-- What is written for a token, without its place. -/
def Token.spelling (token : Token) : Token.Kind × Text :=
  (token.kind, token.text)

namespace Formula

def TokensOf (s : Text) (tokens : List Token) : Prop :=
  Token.tokenize s = .ok tokens ∧ ∃ f, Derives .implication tokens f

/-- The tokens end with a complete formula after a parenthesis that is still open. -/
def EndsInGroup (tokens : List Token) : Prop :=
  ∃ outer left inner f, tokens = outer ++ left :: inner ∧ left.kind = .leftParen ∧
    Derives .implication inner f

namespace State

theorem Reads.unique (first : Reads state ts final) (second : Reads state ts final') :
    final = final' := by
  induction first with
  | nil => cases second; rfl
  | cons step _ ih =>
    cases second with
    | cons step' rest' =>
      rw [step] at step'
      obtain rfl := Except.ok.inj step'
      exact ih rest'

theorem Reads.split (reads : Reads state (ts ++ us) final) :
    ∃ middle, Reads state ts middle ∧ Reads middle us final := by
  induction ts generalizing state with
  | nil => exact ⟨state, .nil, reads⟩
  | cons token ts ih =>
    cases reads with
    | cons step rest =>
      obtain ⟨middle, first, second⟩ := ih rest
      exact ⟨middle, .cons step first, second⟩

theorem step_congr {token token' : Token} (same : token.spelling = token'.spelling)
    (state : State) : state.step token = state.step token' := by
  obtain ⟨kind, text⟩ := Prod.mk.inj same
  simp only [step, kind, text]

theorem Reads.congr (reads : Reads state ts final)
    (same : ts.map Token.spelling = us.map Token.spelling) : Reads state us final := by
  induction reads generalizing us with
  | nil =>
    obtain rfl := List.map_eq_nil_iff.mp same.symm
    exact .nil
  | cons step _ ih =>
    obtain ⟨token', us', rfl, spelling, rest⟩ := List.map_eq_cons_iff.mp same.symm
    exact .cons (step_congr spelling _ ▸ step) (ih rest.symm)

theorem Spells.reads (spells : Spells state ts) (reads : Reads state us final) :
    Spells final (ts ++ us) := by
  induction reads generalizing ts with
  | nil => simpa using spells
  | cons step _ ih => simpa using ih (spells.step step)

/-- A run that is refused reads some tokens, and then either meets one that it cannot read
or stops at the end. -/
theorem run_eq_error (result : run state ts = .error (cause, stop)) :
    ∃ read final, Reads state read final ∧
      ((stop = none ∧ ts = read ∧ final.finish = .error cause) ∨
        ∃ token rest, stop = some token ∧ ts = read ++ token :: rest ∧
          final.step token = .error cause) := by
  induction ts generalizing state with
  | nil =>
    refine ⟨[], state, .nil, .inl ?_⟩
    cases finished : state.finish with
    | ok f => simp [run, finished, Except.mapError] at result
    | error e => simp_all [run, Except.mapError]
  | cons token ts ih =>
    cases next : state.step token with
    | error e =>
      simp only [run, next, Except.error.injEq, Prod.mk.injEq] at result
      obtain ⟨rfl, rfl⟩ := result
      exact ⟨[], state, .nil, .inr ⟨token, ts, rfl, rfl, next⟩⟩
    | ok state' =>
      simp only [run, next] at result
      obtain ⟨read, final, reads, stopped⟩ := ih result
      refine ⟨token :: read, final, .cons next reads, ?_⟩
      rcases stopped with ⟨rfl, rfl, finished⟩ | ⟨refused, rest, rfl, rfl, stepped⟩
      · exact .inl ⟨rfl, rfl, finished⟩
      · exact .inr ⟨refused, rest, rfl, rfl, stepped⟩

/-- After an operand, one parenthesis for each open one completes a formula. -/
theorem exists_run_of_closing {state : State} {ts : List Token} (operand : state.operand = some f)
    (closing : ∀ token ∈ ts, token.kind = .rightParen) (count : ts.length = state.outer.length) :
    ∃ g, state.run ts = .ok g := by
  induction ts generalizing state f with
  | nil =>
    have done : state.outer = [] := List.length_eq_zero_iff.mp count.symm
    exact ⟨_, by simp [run, finish, operand, done, Except.mapError]; rfl⟩
  | cons token ts ih =>
    obtain ⟨closes, closing⟩ := List.forall_mem_cons.mp closing
    obtain ⟨outer, level, _⟩ := state
    obtain rfl := operand
    cases outer with
    | nil => simp at count
    | cons level' outer =>
      have next : (complete ⟨outer, level', none⟩ (level.close f)).operand = some _ := rfl
      obtain ⟨g, result⟩ := ih next closing (Nat.succ.inj count)
      exact ⟨g, by simpa [run, step, closes] using result⟩

def closing (state : State) : List Char :=
  (if state.operand.isSome then [] else ['P']) ++ List.replicate state.outer.length ')'

theorem ends_parens (n : Nat) : Token.Ends (List.replicate n ')') := by
  cases n with
  | zero => exact .nil
  | succ n => exact .sign rfl

theorem scan_parens (n pos : Nat) :
    (Token.scan pos [] (List.replicate n ')')).length = n ∧
      ∀ token ∈ Token.scan pos [] (List.replicate n ')'), token.kind = .rightParen := by
  induction n generalizing pos with
  | zero => exact ⟨rfl, fun _ member => nomatch member⟩
  | succ n ih =>
    obtain ⟨sign, pos', tokens, kind⟩ :=
      Token.exists_scan_sign (c := ')') rfl pos (List.replicate n ')')
    rw [List.replicate_succ, tokens]
    obtain ⟨count, closing⟩ := ih pos'
    exact ⟨by rw [List.length_cons, count], List.forall_mem_cons.mpr ⟨kind, closing⟩⟩

/-- Every state can be completed. -/
theorem exists_run_closing (state : State) (pos : Nat) :
    ∃ f, state.run (Token.scan pos [] state.closing) = .ok f := by
  cases operand : state.operand with
  | some f =>
    obtain ⟨count, closes⟩ := scan_parens state.outer.length pos
    rw [closing, operand]
    exact exists_run_of_closing operand closes count
  | none =>
    have name : Token.NameChars ['P'] := by decide
    obtain ⟨token, pos', tokens, kind, _⟩ :=
      Token.scan_name name (ends_parens state.outer.length) pos
    obtain ⟨count, closes⟩ := scan_parens state.outer.length pos'
    have next : (state.complete (var token.text)).operand = some _ := rfl
    obtain ⟨f, result⟩ := exists_run_of_closing next closes count
    refine ⟨f, ?_⟩
    have shape : state.closing = ['P'] ++ List.replicate state.outer.length ')' := by
      rw [closing, operand]
      rfl
    rw [shape, tokens]
    simpa [run, step, operand, kind] using result

/-- The tokens read so far end in a group that is open exactly if the state has an operand
inside some level. -/
theorem endsInGroup_iff (reads : Reads {} ts final) :
    EndsInGroup ts ↔ final.operand.isSome ∧ final.outer ≠ [] := by
  constructor
  · rintro ⟨outer, left, inner, f, rfl, opens, derivation⟩
    obtain ⟨state, _, rest⟩ := reads.split
    cases rest with
    | @cons _ next _ _ _ step rest =>
      have waits : state.operand = none := by
        cases operand : state.operand with
        | none => rfl
        | some f => simp [State.step, operand, opens] at step
      simp only [State.step, waits, opens, Except.ok.injEq] at step
      subst step
      obtain ⟨level, g, inside, _⟩ := derivation.completes (state.level :: state.outer) []
      obtain rfl := rest.unique inside
      exact ⟨rfl, by simp⟩
  · rintro ⟨operand, nested⟩
    have spells := (Spells.waiting .nil .empty).reads reads
    rw [List.nil_append, List.nil_append] at spells
    cases spells with
    | waiting => simp at operand
    | operand outer inner last =>
      cases outer with
      | nil => contradiction
      | @cons levels os ls' level left opens outer inner' =>
        exact ⟨os ++ ls', left, _, _, by simp, opens, Derives.close inner last⟩

theorem cause_of_step {token : Token} (refused : step state token = .error cause) :
    cause = .unclosed ↔ state.operand.isSome ∧ state.outer ≠ [] := by
  obtain ⟨outer, level, operand⟩ := state
  cases operand with
  | none =>
    have unexpected : .unexpected = cause := by
      cases kind : token.kind <;> simp_all [step]
    simp [← unexpected]
  | some f =>
    cases outer with
    | nil =>
      have unexpected : .unexpected = cause := by
        cases kind : token.kind <;> simp_all [step, refusal]
      simp [← unexpected]
    | cons first outer =>
      have unclosed : .unclosed = cause := by
        cases kind : token.kind <;> simp_all [step, refusal]
      simp [← unclosed]

theorem cause_of_finish (refused : finish state = .error cause) :
    cause = .unclosed ↔ state.operand.isSome ∧ state.outer ≠ [] := by
  obtain ⟨outer, level, operand⟩ := state
  cases operand with
  | none =>
    obtain rfl : .unexpected = cause := by simpa [finish] using refused
    simp
  | some f =>
    cases outer with
    | nil => simp [finish] at refused
    | cons first outer =>
      obtain rfl : .unclosed = cause := by simpa [finish] using refused
      simp

end State

namespace ParseError

theorem reason_eq_iff {e : ParseError} :
    e.reason = "missing closing parenthesis" ↔ e.refusal = .unclosed := by
  obtain ⟨input, refusal, token⟩ := e
  cases refusal with
  | unclosed => exact iff_of_true rfl rfl
  | unexpected =>
    refine iff_of_false (fun same => ?_) (by simp)
    have first : some 0x75 = some (0x6D : UInt8) := by
      cases token with
      | none => exact congrArg List.head? same
      | some token => exact congrArg List.head? same
    exact absurd first (by decide)

theorem reason_of_unexpected {e : ParseError} (unexpected : e.refusal ≠ .unclosed)
    (proper : ∀ token, e.token = some token → token.text ≠ []) :
    e.reason = if e.found = [] then Text.ofString "unexpected end of input"
      else "unexpected token: " ++ e.found := by
  obtain ⟨input, refusal, token⟩ := e
  cases refusal with
  | unclosed => contradiction
  | unexpected =>
    cases token with
    | none => rfl
    | some token =>
      rw [found, if_neg (proper token rfl)]
      rfl

end ParseError

/-- A text whose tokens can be read becomes a formula with what completes the last state. -/
theorem tokensOf_closing (reads : State.Reads {} (Token.scan 0 [] cs) final) :
    ∃ more, TokensOf (Text.encode (cs ++ ' ' :: final.closing)) (Token.scan 0 [] cs ++ more) := by
  obtain ⟨pos, tokens⟩ := Token.scan_append_blank 0 [] cs (c := ' ') final.closing rfl
  obtain ⟨f, result⟩ := final.exists_run_closing pos
  refine ⟨Token.scan pos [] final.closing, ?_, f, ?_⟩
  · rw [Token.tokenize, Text.chars?_encode, ← tokens]
  · rw [← run_eq_ok_iff, State.run_of_reads reads, result]

/-- No formula goes on with a token that is refused. -/
theorem not_spelled_of_refused {read : List Token} {token : Token}
    (reads : State.Reads {} read final) (refused : final.step token = .error cause)
    (formula : TokensOf u tokens) :
    ¬(read ++ [token]).map Token.spelling <+: tokens.map Token.spelling := by
  rintro ⟨rest, same⟩
  obtain ⟨_, f, derivation⟩ := formula
  rw [List.map_append, List.append_assoc] at same
  obtain ⟨read', more, rfl, start, later⟩ := List.append_eq_map_iff.mp same
  obtain ⟨token', after, rfl, spelling, _⟩ := List.map_eq_cons_iff.mp later
  have result := run_eq_ok_iff.mpr derivation
  rw [State.run_of_reads (reads.congr start.symm), State.run, State.step_congr spelling, refused]
    at result
  contradiction

theorem parse_eq_error (tokens : Token.tokenize s = .ok ts) (other : ∀ ts, ¬TokensOf s ts) :
    ∃ cause stop, State.run {} ts = .error (cause, stop) ∧
      parse s = .error (.ungrammatical ⟨s, cause, stop⟩) := by
  cases result : State.run {} ts with
  | ok f => exact absurd ⟨tokens, f, run_eq_ok_iff.mp result⟩ (other ts)
  | error e => exact ⟨e.1, e.2, rfl, by simp only [parse, tokens, result]⟩

/-- The text before a token can be completed to a formula that begins with its tokens. -/
theorem exists_tokensOf_take {read : List Token} {token : Token}
    (tokens : Token.scan 0 [] cs = read ++ token :: rest) (reads : State.Reads {} read final) :
    ∃ u more, TokensOf ((Text.encode cs).take token.pos ++ u) (read ++ more) := by
  rcases Token.scan_before (Nat.zero_le _) tokens with ⟨nonempty, _⟩ | ⟨ds, es, rfl, rfl, place⟩
  · contradiction
  · obtain ⟨more, formula⟩ := tokensOf_closing reads
    refine ⟨Text.encode (' ' :: final.closing), more, ?_⟩
    rw [place, Nat.zero_add, Text.encode_append ds es, List.take_left, ← Text.encode_append]
    exact formula

/-- A text that is refused at its end can be completed. -/
theorem exists_tokensOf_append (other : ∀ tokens, ¬TokensOf (Text.encode cs) tokens)
    (reads : State.Reads {} (Token.scan 0 [] cs) final) :
    ∃ u more, more ≠ [] ∧ TokensOf (Text.encode cs ++ u) (Token.scan 0 [] cs ++ more) := by
  obtain ⟨more, formula⟩ := tokensOf_closing reads
  refine ⟨Text.encode (' ' :: final.closing), more, ?_, Text.encode_append .. ▸ formula⟩
  rintro rfl
  have tokens : Token.tokenize (Text.encode cs) = .ok (Token.scan 0 [] cs) := by
    rw [Token.tokenize, Text.chars?_encode]
  rw [List.append_nil] at formula
  exact other _ ⟨tokens, formula.2⟩

/-- A valid text that is no formula is refused at the first token after which no formula can
go on: the tokens before it begin a formula, and no formula begins with them and it. If there
is no such token, the text is refused at its end, and its tokens begin a longer formula. The
reason is a missing parenthesis exactly if what was read ends in a group that is open. -/
theorem parse_refuses_first_impossible_token (s : Text) (valid : s.chars?.isSome)
    (other : ∀ tokens, ¬TokensOf s tokens) :
    ∃ e read rest, parse s = .error (.ungrammatical e) ∧ e.input = s ∧
      Token.tokenize s = .ok (read ++ rest) ∧
      (e.found ≠ [] → ∃ token after, rest = token :: after ∧ token.text = e.found ∧
        token.pos = e.pos ∧ e.found <+: s.drop e.pos ∧
        (∃ u more, TokensOf (s.take e.pos ++ u) (read ++ more)) ∧
        ∀ u tokens, TokensOf u tokens →
          ¬(read ++ [token]).map Token.spelling <+: tokens.map Token.spelling) ∧
      (e.found = [] → rest = [] ∧ e.pos = s.length ∧
        ∃ u more, more ≠ [] ∧ TokensOf (s ++ u) (read ++ more)) ∧
      (e.reason = "missing closing parenthesis" ↔ EndsInGroup read) ∧
      (¬EndsInGroup read → e.reason = if e.found = [] then Text.ofString "unexpected end of input"
        else "unexpected token: " ++ e.found) := by
  obtain ⟨cs, decoded⟩ := Option.isSome_iff_exists.mp valid
  obtain rfl := Text.chars?_eq_some_iff.mp decoded
  have tokens : Token.tokenize (Text.encode cs) = .ok (Token.scan 0 [] cs) := by
    rw [Token.tokenize, decoded]
  obtain ⟨cause, stop, result, refused⟩ := parse_eq_error tokens other
  obtain ⟨read, final, reads, stopped⟩ := State.run_eq_error result
  have laidOut : Token.LaidOut 0 cs (Token.scan 0 [] cs) :=
    Token.laidOut_scan (.empty cs) (Nat.zero_le _)
  rcases stopped with ⟨rfl, rfl, finished⟩ | ⟨token, after, rfl, split, stepped⟩
  · have group := (State.cause_of_finish finished).trans (State.endsInGroup_iff reads).symm
    refine ⟨_, _, [], refused, rfl, by rw [List.append_nil, tokens], fun found => absurd rfl found,
      fun _ => ⟨rfl, rfl, exists_tokensOf_append other reads⟩, ParseError.reason_eq_iff.trans group,
      fun outside => ParseError.reason_of_unexpected (outside ∘ group.mp) (by simp)⟩
  · have group := (State.cause_of_step stepped).trans (State.endsInGroup_iff reads).symm
    have member : token ∈ Token.scan 0 [] cs := by simp [split]
    have proper := (laidOut.proper member).text_ne_nil
    obtain ⟨before, later, text, place⟩ := laidOut.text_at member
    have written : token.text <+: (Text.encode cs).drop token.pos := by
      rw [text, ← place, Nat.zero_add, List.drop_left]
      exact List.prefix_append ..
    refine ⟨_, read, token :: after, refused, rfl, by rw [tokens, split],
      fun _ => ⟨token, after, rfl, rfl, rfl, written, exists_tokensOf_take split reads,
        fun u _ => not_spelled_of_refused reads stepped⟩,
      fun found => absurd found proper, ParseError.reason_eq_iff.trans group,
      fun outside => ParseError.reason_of_unexpected (outside ∘ group.mp) ?_⟩
    rintro _ ⟨⟩
    exact proper

/-- In `é & (P Q)` the second name stands where only a sign can follow. The group before it is
complete and open, and with a parenthesis in the name's place the text is a formula. -/
theorem parse_refuses_first_impossible_token_in_group :
    (Text.ofString "é & (P Q)").chars?.isSome ∧ (∀ tokens, ¬TokensOf "é & (P Q)" tokens) ∧
    ∃ e read rest, parse "é & (P Q)" = .error (.ungrammatical e) ∧ e.found = Text.ofString "Q" ∧
      e.pos = 8 ∧ e.reason = "missing closing parenthesis" ∧
      Token.tokenize "é & (P Q)" = .ok (read ++ rest) ∧ EndsInGroup read ∧
      ∃ u more, TokensOf ((Text.ofString "é & (P Q)").take 8 ++ u) (read ++ more) := by
  have decoded : (Text.ofString "é & (P Q)").chars? = some "é & (P Q)".toList :=
    Text.chars?_encode _
  have tokens : Token.tokenize "é & (P Q)" = .ok (Token.scan 0 [] "é & (P Q)".toList) := by
    rw [Token.tokenize, decoded]
  have refused : parse "é & (P Q)" =
      .error (.ungrammatical ⟨"é & (P Q)", .unclosed, some ⟨.name, "Q", 8⟩⟩) := by
    rw [parse, tokens]
    rfl
  have other : ∀ tokens, ¬TokensOf "é & (P Q)" tokens := by
    rintro ts ⟨same, f, derivation⟩
    rw [parse_eq_ok_iff.mpr ⟨ts, same, derivation⟩] at refused
    contradiction
  have valid : (Text.ofString "é & (P Q)").chars?.isSome := by rw [decoded]; rfl
  obtain ⟨e, read, rest, result, _, split, atToken, _, group, _⟩ :=
    parse_refuses_first_impossible_token "é & (P Q)" valid other
  rw [refused] at result
  cases result
  obtain ⟨token, after, _, _, _, _, begins, _⟩ := atToken (by decide)
  exact ⟨valid, other, _, read, rest, refused, rfl, rfl, rfl, split, group.mp rfl, begins⟩

end Formula

end Turnstile
