import Turnstile.Proofs.Sequent

/-! The parts of an argument are its premises in their order and then its conclusion. All blank
parts are named together, before any part is read; otherwise the first part that is no formula
is named, with the error of reading it. Later faults are not reported. -/
namespace Turnstile

theorem Token.scan_blanks {pos : Nat} {cs : List Char} (blank : ∀ c ∈ cs, Text.isBlank c = true) :
    scan pos [] cs = [] := by
  induction cs generalizing pos with
  | nil => rfl
  | cons c cs ih =>
    obtain ⟨first, rest⟩ := List.forall_mem_cons.mp blank
    rw [scan_blank pos [] cs first, closeRun_nil]
    exact ih rest

/-- A formula is not blank. -/
theorem Formula.trim_ne_nil_of_parse {s : Text} {f : Formula} (read : parse s = .ok f) :
    s.trim ≠ [] := by
  intro empty
  obtain ⟨cs, rfl, blank⟩ := Text.trim_eq_nil_iff.mp empty
  simp [parse, Token.tokenize, Token.scan_blanks blank, State.run, State.finish,
    Except.mapError] at read

namespace Argument

inductive Part.Before : Part → Part → Prop where
  | premises {i j : Nat} (less : i < j) : Before (premise i) (premise j)
  | conclusion {i : Nat} : Before (premise i) conclusion

def text? (a : Argument) : Part → Option Text
  | .premise i => a.premises[i]?
  | .conclusion => some a.conclusion

def IsBlank (a : Argument) (part : Part) : Prop :=
  ∃ text, a.text? part = some text ∧ text.trim = []

/-- Reading the part fails, and all parts before it are formulas. -/
structure FirstFault (a : Argument) (part : Part) (e : Formula.ReadError) : Prop where
  fails : ∃ text, a.text? part = some text ∧ Formula.parse text = .error e
  before : ∀ earlier text, earlier.Before part → a.text? earlier = some text →
    ∃ f, Formula.parse text = .ok f

/-- What a part is called in front of the error of reading it. Premises count from 1. -/
def Part.heading : Part → Text
  | premise i => "premise " ++ Text.ofNat (i + 1)
  | conclusion => "conclusion"

def Part.refusal : Part → Formula.ReadError → Invalid
  | premise i, e => .badPremise (i + 1) e
  | conclusion, e => .badConclusion e

theorem Part.message_refusal (part : Part) (e : Formula.ReadError) :
    (part.refusal e).message = part.heading ++ (": " ++ e.message) := by
  cases part <;> simp [refusal, heading, Invalid.message, Invalid.context, Text.ofString]

theorem mem_blanks {a : Argument} {part : Part} : part ∈ a.blanks ↔ a.IsBlank part := by
  cases part with
  | premise i => simp [blanks, IsBlank, text?, List.mem_zipIdx_iff_getElem?]
  | conclusion => simp [blanks, IsBlank, text?]

theorem pairwise_blanks (a : Argument) : a.blanks.Pairwise Part.Before := by
  rw [blanks, List.pairwise_append]
  refine ⟨?_, ?_, ?_⟩
  · refine (pairwise_zipIdx a.premises).filterMap _ ?_
    rintro ⟨_, i⟩ ⟨_, j⟩ less part first other second
    simp only [Option.ite_none_right_eq_some, Option.some.injEq] at first second
    rw [← first.2, ← second.2]
    exact .premises less
  · split <;> simp
  · intro part first other second
    simp only [List.mem_filterMap, Option.ite_none_right_eq_some] at first
    obtain ⟨⟨_, i⟩, _, _, same⟩ := first
    obtain rfl : other = .conclusion := by
      split at second
      · simpa using second
      · contradiction
    rw [← Option.some.inj same]
    exact .conclusion

/-- The first premise that is no formula is refused under its number. -/
theorem parsePremises_append_cons {before : List Text} {text : Text} {e : Formula.ReadError}
    (parsed : ∀ t ∈ before, ∃ f, Formula.parse t = .ok f) (fails : Formula.parse text = .error e)
    (n : Nat) (after : List Text) :
    parsePremises n (before ++ text :: after) = .error (.badPremise (n + before.length) e) := by
  induction before generalizing n with
  | nil => simp [parsePremises, fails]
  | cons t before ih =>
    obtain ⟨⟨f, read⟩, parsed⟩ := List.forall_mem_cons.mp parsed
    simp only [List.cons_append, parsePremises, read, ih parsed, Except.map, List.length_cons]
    rw [Nat.add_assoc, Nat.add_comm 1]

theorem exists_first_fault {n : Nat} {texts : List Text} {refused : Invalid}
    (failed : parsePremises n texts = .error refused) :
    ∃ before text after e, texts = before ++ text :: after ∧
      (∀ t ∈ before, ∃ f, Formula.parse t = .ok f) ∧ Formula.parse text = .error e := by
  induction texts generalizing n with
  | nil => simp [parsePremises] at failed
  | cons text texts ih =>
    cases first : Formula.parse text with
    | error e => exact ⟨[], text, texts, e, rfl, by simp, first⟩
    | ok f =>
      simp only [parsePremises, first, map_eq_error_iff] at failed
      obtain ⟨before, other, after, e, rfl, parsed, fails⟩ := ih failed
      refine ⟨text :: before, other, after, e, rfl, ?_, fails⟩
      exact List.forall_mem_cons.mpr ⟨⟨f, first⟩, parsed⟩

theorem parsePremises_eq_error_iff {n : Nat} {texts : List Text} {refused : Invalid} :
    parsePremises n texts = .error refused ↔
      ∃ before text after e, texts = before ++ text :: after ∧
        (∀ t ∈ before, ∃ f, Formula.parse t = .ok f) ∧ Formula.parse text = .error e ∧
        refused = .badPremise (n + before.length) e := by
  constructor
  · intro failed
    obtain ⟨before, text, after, e, rfl, parsed, fails⟩ := exists_first_fault failed
    rw [parsePremises_append_cons parsed fails] at failed
    exact ⟨before, text, after, e, rfl, parsed, fails, (Except.error.inj failed).symm⟩
  · rintro ⟨before, text, after, e, rfl, parsed, fails, rfl⟩
    exact parsePremises_append_cons parsed fails n after

theorem exists_parsePremises_iff {n : Nat} {texts : List Text} :
    (∃ fs, parsePremises n texts = .ok fs) ↔ ∀ t ∈ texts, ∃ f, Formula.parse t = .ok f := by
  constructor
  · rintro ⟨fs, read⟩ t member
    obtain ⟨f, _, parsed⟩ := exists_related_left (parsePremises_eq_ok_iff.mp read).flip member
    exact ⟨f, parsed⟩
  · intro parsed
    cases read : parsePremises n texts with
    | ok fs => exact ⟨fs, rfl⟩
    | error refused =>
      obtain ⟨before, text, after, e, rfl, _, fails, _⟩ := parsePremises_eq_error_iff.mp read
      obtain ⟨f, parsed⟩ := parsed text (by simp)
      simp [fails] at parsed

theorem forall_text?_iff {a : Argument} {P : Text → Prop} :
    (∀ part text, a.text? part = some text → P text) ↔
      (∀ t ∈ a.premises, P t) ∧ P a.conclusion := by
  constructor
  · intro all
    refine ⟨fun t member => ?_, all .conclusion _ rfl⟩
    obtain ⟨i, here⟩ := List.mem_iff_getElem?.mp member
    exact all (.premise i) t here
  · rintro ⟨premises, conclusion⟩ part text here
    cases part with
    | premise i => exact premises text (List.mem_of_getElem? here)
    | conclusion => exact Option.some.inj here ▸ conclusion

section Faults

variable {a : Argument} {e : Formula.ReadError}

theorem firstFault_premise_iff {i : Nat} : a.FirstFault (.premise i) e ↔
    ∃ before text after, a.premises = before ++ text :: after ∧ before.length = i ∧
      (∀ t ∈ before, ∃ f, Formula.parse t = .ok f) ∧ Formula.parse text = .error e := by
  constructor
  · rintro ⟨⟨text, here, fails⟩, before⟩
    obtain ⟨inside, rfl⟩ := List.getElem?_eq_some_iff.mp here
    refine ⟨a.premises.take i, a.premises[i], a.premises.drop (i + 1), by simp, ?_, ?_, fails⟩
    · exact List.length_take_of_le inside.le
    · intro t member
      obtain ⟨j, inside', rfl⟩ := List.mem_take_iff_getElem.mp member
      exact before (.premise j) _ (.premises (by omega)) (by simp [text?])
  · rintro ⟨before, text, after, premises, rfl, parsed, fails⟩
    refine ⟨⟨text, by simp [text?, premises], fails⟩, fun earlier t less here => ?_⟩
    cases less with
    | premises less =>
      rw [text?, premises, List.getElem?_append_left less] at here
      exact parsed t (List.mem_of_getElem? here)

theorem firstFault_conclusion_iff : a.FirstFault .conclusion e ↔
    (∀ t ∈ a.premises, ∃ f, Formula.parse t = .ok f) ∧ Formula.parse a.conclusion = .error e := by
  constructor
  · rintro ⟨⟨text, here, fails⟩, before⟩
    obtain rfl := Option.some.inj here
    refine ⟨fun t member => ?_, fails⟩
    obtain ⟨i, here⟩ := List.mem_iff_getElem?.mp member
    exact before (.premise i) t .conclusion here
  · rintro ⟨parsed, fails⟩
    refine ⟨⟨_, rfl, fails⟩, fun earlier t less here => ?_⟩
    cases less with
    | conclusion => exact parsed t (List.mem_of_getElem? here)

/-- Without blank parts, reading fails where the first part fails that is no formula. -/
theorem parse_eq_error_iff (valid : a.validate = .ok ()) {refused : Invalid} :
    a.parse = .error refused ↔ ∃ part e, a.FirstFault part e ∧ refused = part.refusal e := by
  have phases : a.parse = .error refused ↔ parsePremises 1 a.premises = .error refused ∨
      (∃ fs, parsePremises 1 a.premises = .ok fs) ∧
        ∃ e, Formula.parse a.conclusion = .error e ∧ refused = .badConclusion e := by
    cases premises : parsePremises 1 a.premises <;>
      cases conclusion : Formula.parse a.conclusion <;>
        simp [parse, valid, premises, conclusion, bind, Except.bind, eq_comm]
  rw [phases, parsePremises_eq_error_iff, exists_parsePremises_iff]
  constructor
  · rintro (⟨before, text, after, e, premises, parsed, fails, rfl⟩ | ⟨parsed, e, fails, rfl⟩)
    · refine ⟨.premise before.length, e, ?_, by rw [Part.refusal, Nat.add_comm]⟩
      exact firstFault_premise_iff.mpr ⟨before, text, after, premises, rfl, parsed, fails⟩
    · exact ⟨.conclusion, e, firstFault_conclusion_iff.mpr ⟨parsed, fails⟩, rfl⟩
  · rintro ⟨part, e, fault, rfl⟩
    cases part with
    | premise i =>
      obtain ⟨before, text, after, premises, rfl, parsed, fails⟩ := firstFault_premise_iff.mp fault
      exact .inl ⟨before, text, after, e, premises, parsed, fails,
        by rw [Part.refusal, Nat.add_comm]⟩
    | conclusion =>
      obtain ⟨parsed, fails⟩ := firstFault_conclusion_iff.mp fault
      exact .inr ⟨parsed, e, fails, rfl⟩

end Faults

/-- An argument whose parts are all formulas has no blank parts. -/
theorem validate_of_parts {a : Argument}
    (parsed : ∀ part text, a.text? part = some text → ∃ f, Formula.parse text = .ok f) :
    a.validate = .ok () := by
  refine validate_eq_ok_iff.mpr (forall_text?_iff.mp fun part text here => ?_)
  obtain ⟨f, read⟩ := parsed part text here
  exact Formula.trim_ne_nil_of_parse read

theorem parse_eq_ok_iff_formulas {a : Argument} {parsed : Parsed} : a.parse = .ok parsed ↔
    List.Forall₂ (fun text f => Formula.parse text = .ok f) a.premises parsed.premises ∧
      Formula.parse a.conclusion = .ok parsed.conclusion := by
  rw [parse_eq_ok_iff, and_iff_right_of_imp]
  rintro ⟨premises, conclusion⟩
  refine validate_of_parts (forall_text?_iff.mpr ⟨fun t member => ?_, _, conclusion⟩)
  obtain ⟨f, _, read⟩ := exists_related_left premises.flip member
  exact ⟨f, read⟩

theorem exists_parse_iff {a : Argument} : (∃ parsed, a.parse = .ok parsed) ↔
    ∀ part text, a.text? part = some text → ∃ f, Formula.parse text = .ok f := by
  rw [forall_text?_iff, ← @exists_parsePremises_iff 1]
  simp only [parse_eq_ok_iff_formulas, parsePremises_eq_ok_iff]
  constructor
  · rintro ⟨parsed, premises, conclusion⟩
    exact ⟨⟨_, premises⟩, _, conclusion⟩
  · rintro ⟨⟨fs, premises⟩, f, conclusion⟩
    exact ⟨⟨fs, f⟩, premises, conclusion⟩

theorem validate_of_isBlank {a : Argument} (blank : a.IsBlank part) :
    a.validate = .error (.blank a.blanks) := by
  have named := mem_blanks.mpr blank
  rw [validate]
  split
  · next none => simp [none] at named
  · rfl

/-- Blank parts are refused before any part is read. -/
theorem parse_of_isBlank {a : Argument} (blank : a.IsBlank part) :
    a.parse = .error (.blank a.blanks) := by
  simp [parse, validate_of_isBlank blank, bind, Except.bind]

theorem validate_of_not_isBlank {a : Argument} (filled : ∀ part, ¬a.IsBlank part) :
    a.validate = .ok () :=
  validate_eq_ok_iff.mpr (forall_text?_iff.mp fun part text here blank =>
    filled part ⟨text, here, blank⟩)

/-- An argument is read exactly if each of its parts is a formula, and then as these formulas in
their order, so an argument with formulas as parts passes the check for blank parts. If there are
blank parts, exactly these are named, in their order, whatever else is wrong. Otherwise the first
part that is no formula is named, with the error of reading it. -/
theorem parse_accepts_or_blames_first_part (a : Argument) :
    (∀ parsed, a.parse = .ok parsed ↔
      List.Forall₂ (fun text f => Formula.parse text = .ok f) a.premises parsed.premises ∧
        Formula.parse a.conclusion = .ok parsed.conclusion) ∧
    ((∃ parsed, a.parse = .ok parsed) ↔
      ∀ part text, a.text? part = some text → ∃ f, Formula.parse text = .ok f) ∧
    ((∀ part text, a.text? part = some text → ∃ f, Formula.parse text = .ok f) →
      a.validate = .ok ()) ∧
    ((∃ part, a.IsBlank part) → ∃ parts, a.validate = .error (.blank parts) ∧
      a.parse = .error (.blank parts) ∧ parts.Pairwise Part.Before ∧
      (∀ part, part ∈ parts ↔ a.IsBlank part) ∧
      (Invalid.blank parts).message =
        "invalid argument: " ++ Text.join "\n" (parts.map Part.missing)) ∧
    ((∀ part, ¬a.IsBlank part) → ∀ refused, a.parse = .error refused ↔
      ∃ part e, a.FirstFault part e ∧ refused = part.refusal e ∧
        refused.message = part.heading ++ (": " ++ e.message)) := by
  refine ⟨fun parsed => parse_eq_ok_iff_formulas, exists_parse_iff, validate_of_parts, ?_, ?_⟩
  · rintro ⟨part, blank⟩
    exact ⟨a.blanks, validate_of_isBlank blank, parse_of_isBlank blank, pairwise_blanks a,
      fun part => mem_blanks, rfl⟩
  · intro filled refused
    rw [parse_eq_error_iff (validate_of_not_isBlank filled)]
    constructor
    · rintro ⟨part, e, fault, rfl⟩
      exact ⟨part, e, fault, rfl, part.message_refusal e⟩
    · rintro ⟨part, e, fault, same, _⟩
      exact ⟨part, e, fault, same⟩

/-- The second premise and the conclusion are blank. The first premise is no formula and the third
no encoding of characters, but they are not read. -/
example : parse { premises := ["P &", " ", [0xFF]], conclusion := "\u3000" } =
    .error (.blank [.premise 1, .conclusion]) := by
  decide +kernel

/-- Without the blanks the first premise is refused, as the first of three parts at fault. -/
example : parse { premises := ["P &", [0xFF]], conclusion := "(" } =
    .error (.badPremise 1 (.ungrammatical ⟨"P &", .unexpected, none⟩)) := by
  decide +kernel

end Argument

end Turnstile
