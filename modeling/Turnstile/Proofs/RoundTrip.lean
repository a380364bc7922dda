import Turnstile.Formula.Canonical
import Turnstile.Proofs.Grammar
import Turnstile.Proofs.Tokens

/-! Reading the canonical text of a formula whose names can be written gives the formula again,
and reading any text gives a formula with such names. Canonical texts therefore tell formulas
apart, which everything that is looked up by canonical text rests on. For other names they need
not. -/
namespace Turnstile

namespace Formula

def Named (f : Formula) : Prop :=
  ∀ name ∈ f.leaves, name.IsName

instance (f : Formula) : Decidable f.Named :=
  inferInstanceAs (Decidable (∀ name ∈ f.leaves, name.IsName))

@[simp] theorem named_var : (var name).Named ↔ name.IsName := by simp [Named, leaves]

@[simp] theorem named_not : (not f).Named ↔ f.Named := by simp [Named, leaves]

@[simp] theorem named_and : (and l r).Named ↔ l.Named ∧ r.Named := by
  simp [Named, leaves, or_imp, forall_and]

@[simp] theorem named_or : (or l r).Named ↔ l.Named ∧ r.Named := by
  simp [Named, leaves, or_imp, forall_and]

@[simp] theorem named_implies : (implies l r).Named ↔ l.Named ∧ r.Named := by
  simp [Named, leaves, or_imp, forall_and]

/-- The characters of a text that is read as a phrase of `f`, whatever ends it. -/
def ReadFrom (f : Formula) (cs : List Char) : Prop :=
  ∀ pos rest, Token.Ends rest → ∃ ts pos',
    Token.scan pos [] (cs ++ rest) = ts ++ Token.scan pos' [] rest ∧ Derives .negation ts f

theorem readFrom_var (name : Token.NameChars cs) :
    ReadFrom (var (Text.encode cs)) cs := by
  intro pos rest ends
  obtain ⟨token, pos', tokens, kind, text⟩ := Token.scan_name name ends pos
  refine ⟨[token], pos', tokens, ?_⟩
  rw [← text]
  exact .ofPrimary (.name kind)

theorem readFrom_not (operand : ReadFrom f cs) : ReadFrom (not f) ('~' :: cs) := by
  intro pos rest ends
  obtain ⟨sign, pos₁, first, kind⟩ := Token.exists_scan_sign (c := '~') rfl pos (cs ++ rest)
  obtain ⟨ts, pos₂, tokens, derivation⟩ := operand pos₁ rest ends
  refine ⟨sign :: ts, pos₂, ?_, .not kind derivation⟩
  rw [List.cons_append, first, tokens, List.cons_append]

/-- A phrase of the loosest category in parentheses. -/
theorem readFrom_group
    (inner : ∀ pos rest, ∃ ts pos', Token.scan pos [] (cs ++ ')' :: rest) =
      ts ++ Token.scan pos' [] (')' :: rest) ∧ Derives .implication ts f) :
    ReadFrom f ('(' :: (cs ++ [')'])) := by
  intro pos rest _
  obtain ⟨left, pos₁, first, opens⟩ :=
    Token.exists_scan_sign (c := '(') rfl pos (cs ++ ')' :: rest)
  obtain ⟨ts, pos₂, tokens, derivation⟩ := inner pos₁ rest
  obtain ⟨right, pos₃, last, closes⟩ := Token.exists_scan_sign (c := ')') rfl pos₂ rest
  refine ⟨left :: ts ++ [right], pos₃, ?_, .ofPrimary (.group opens closes derivation)⟩
  simp [first, tokens, last]

theorem ReadFrom.group (inner : ReadFrom f cs) : ReadFrom f ('(' :: (cs ++ [')'])) :=
  readFrom_group fun pos rest =>
    let ⟨ts, pos', tokens, derivation⟩ := inner pos (')' :: rest) (.sign rfl)
    ⟨ts, pos', tokens, derivation.loosest⟩

/-- Two phrases with an operator between them, in parentheses. -/
theorem readFrom_binary (op : List Char) {kind : Token.Kind} (left : ReadFrom l cs)
    (right : ReadFrom r ds)
    (operator : ∀ pos rest, ∃ token pos', Token.scan pos [] (op ++ rest) =
      token :: Token.scan pos' [] rest ∧ token.kind = kind)
    (rule : ∀ {sign : Token} {ts us}, sign.kind = kind → Derives .negation ts l →
      Derives .negation us r → Derives .implication (ts ++ sign :: us) f) :
    ReadFrom f ('(' :: (cs ++ ' ' :: (op ++ ' ' :: ds) ++ [')'])) := by
  refine readFrom_group fun pos rest => ?_
  obtain ⟨ts, pos₁, first, leftDerivation⟩ :=
    left pos (' ' :: (op ++ ' ' :: (ds ++ ')' :: rest))) (.blank rfl)
  obtain ⟨sign, pos₂, second, isKind⟩ :=
    operator (pos₁ + (' ').utf8Size) (' ' :: (ds ++ ')' :: rest))
  obtain ⟨us, pos₃, third, rightDerivation⟩ :=
    right (pos₂ + (' ').utf8Size) (')' :: rest) (.sign rfl)
  refine ⟨ts ++ sign :: us, pos₃, ?_, rule isKind leftDerivation rightDerivation⟩
  have blank (pos : Nat) (cs : List Char) :
      Token.scan pos [] (' ' :: cs) = Token.scan (pos + (' ').utf8Size) [] cs :=
    Token.scan_blank pos [] cs rfl
  simp only [List.append_assoc, List.cons_append]
  rw [first, blank, second, blank, third]

theorem canonical_not_of_compound {f : Formula} (compound : ∀ name, f ≠ var name) :
    (not f).canonical = "~(" ++ (f.canonical ++ ")") := by
  cases f with
  | var name => exact absurd rfl (compound name)
  | _ =>
    rw [canonical, write, write_eq]
    · rfl
    · simp

/-- The canonical text of a formula with names that can be written is read as that formula. -/
theorem Named.readFrom_canonical {f : Formula} (named : f.Named) :
    ∃ cs, Text.encode cs = f.canonical ∧ ReadFrom f cs := by
  induction f with
  | var name =>
    obtain ⟨cs, rfl, chars⟩ := named_var.mp named
    exact ⟨cs, by simp, readFrom_var chars⟩
  | not f ih =>
    obtain ⟨cs, text, operand⟩ := ih (named_not.mp named)
    by_cases atom : ∃ name, f = var name
    · obtain ⟨name, rfl⟩ := atom
      refine ⟨'~' :: cs, ?_, readFrom_not operand⟩
      rw [canonical_not_var, ← canonical_var name, ← text]
      rfl
    · refine ⟨'~' :: '(' :: (cs ++ [')']), ?_, readFrom_not operand.group⟩
      rw [canonical_not_of_compound (not_exists.mp atom), ← text, Text.encode_cons,
        Text.encode_cons, Text.encode_append]
      rfl
  | and l r ihl ihr =>
    obtain ⟨cs, leftText, left⟩ := ihl (named_and.mp named).1
    obtain ⟨ds, rightText, right⟩ := ihr (named_and.mp named).2
    refine ⟨_, ?_, readFrom_binary ['&'] left right (Token.exists_scan_sign rfl) fun kind dl dr =>
      .ofDisjunction (.ofConjunction (.and kind (.ofNegation dl) dr))⟩
    rw [canonical_and, ← leftText, ← rightText]
    simp
    rfl
  | or l r ihl ihr =>
    obtain ⟨cs, leftText, left⟩ := ihl (named_or.mp named).1
    obtain ⟨ds, rightText, right⟩ := ihr (named_or.mp named).2
    refine ⟨_, ?_, readFrom_binary ['|'] left right (Token.exists_scan_sign rfl) fun kind dl dr =>
      .ofDisjunction (.or kind (.ofConjunction (.ofNegation dl)) (.ofNegation dr))⟩
    rw [canonical_or, ← leftText, ← rightText]
    simp
    rfl
  | implies l r ihl ihr =>
    obtain ⟨cs, leftText, left⟩ := ihl (named_implies.mp named).1
    obtain ⟨ds, rightText, right⟩ := ihr (named_implies.mp named).2
    refine ⟨_, ?_, readFrom_binary ['-', '>'] left right Token.exists_scan_arrow fun kind dl dr =>
      .implies kind (.ofConjunction (.ofNegation dl)) dr.loosest⟩
    rw [canonical_implies, ← leftText, ← rightText]
    simp
    rfl

theorem Named.parse_canonical {f : Formula} (named : f.Named) : parse f.canonical = .ok f := by
  obtain ⟨cs, text, reads⟩ := named.readFrom_canonical
  obtain ⟨ts, pos, tokens, derivation⟩ := reads 0 [] .nil
  refine parse_eq_ok_iff.mpr ⟨ts, ?_, derivation.loosest⟩
  have nothing : Token.scan pos [] [] = [] := rfl
  rw [nothing, List.append_nil, List.append_nil] at tokens
  rw [← text, Token.tokenize, Text.chars?_encode, ← tokens]

/-- The variables of a phrase are its name tokens. -/
theorem Derives.mem_leaves {x : Text} (derivation : Derives category ts f)
    (member : x ∈ f.leaves) : ∃ token ∈ ts, token.kind = .name ∧ token.text = x := by
  induction derivation with
  | name kind =>
    rw [leaves, List.mem_singleton] at member
    exact ⟨_, List.mem_singleton_self _, kind, member.symm⟩
  | group opens closes inner ih =>
    obtain ⟨token, mem, rest⟩ := ih member
    exact ⟨token, by simp [mem], rest⟩
  | ofPrimary _ ih | ofNegation _ ih | ofConjunction _ ih | ofDisjunction _ ih => exact ih member
  | not kind operand ih =>
    obtain ⟨token, mem, rest⟩ := ih member
    exact ⟨token, List.mem_cons_of_mem _ mem, rest⟩
  | and kind left right ihl ihr | or kind left right ihl ihr | implies kind left right ihl ihr =>
    rcases List.mem_append.mp member with member | member
    · obtain ⟨token, mem, rest⟩ := ihl member
      exact ⟨token, by simp [mem], rest⟩
    · obtain ⟨token, mem, rest⟩ := ihr member
      exact ⟨token, by simp [mem], rest⟩

theorem named_of_parse (result : parse s = .ok f) : f.Named := by
  intro name member
  obtain ⟨ts, tokens, derivation⟩ := parse_eq_ok_iff.mp result
  obtain ⟨token, mem, kind, rfl⟩ := derivation.mem_leaves member
  exact Token.isName_of_mem_tokenize tokens mem kind

/-- Canonical texts tell formulas apart. -/
theorem Named.canonical_injective {f g : Formula} (first : f.Named) (second : g.Named)
    (same : f.canonical = g.canonical) : f = g := by
  have result := first.parse_canonical
  rw [same, second.parse_canonical] at result
  exact (Except.ok.inj result).symm

/-- Writing and reading formulas are inverse to each other on the formulas whose names can
be written, which are the formulas that can be read. -/
theorem parse_inverts_canonical :
    (∀ f : Formula, f.Named → parse f.canonical = .ok f) ∧
    (∀ (s : Text) (f : Formula), parse s = .ok f → f.Named) ∧
    (∀ (s : Text) (f : Formula), parse s = .ok f → parse f.canonical = .ok f) ∧
    (∀ f g : Formula, f.Named → g.Named → f.canonical = g.canonical → f = g) ∧
    (∀ f g : Formula, f.Named → g.Named → (same f g = true ↔ f = g)) := by
  refine ⟨fun f named => named.parse_canonical, fun s f => named_of_parse,
    fun s f result => (named_of_parse result).parse_canonical,
    fun f g first second => first.canonical_injective second, fun f g first second => ?_⟩
  constructor
  · intro same
    exact first.canonical_injective second (eq_of_beq same)
  · rintro rfl
    exact beq_self_eq_true _

/-- Names may hold parts of signs: `(~>b -> (- & ~((a-b | é))))` is written and read back. -/
theorem parse_inverts_canonical_of_odd_names :
    let f := implies (not (var ">b")) (and (var "-") (not (or (var "a-b") (var "é"))))
    f.Named ∧ parse f.canonical = .ok f := by
  intro f
  have named : f.Named := by decide +kernel
  exact ⟨named, parse_inverts_canonical.1 f named⟩

end Formula

end Turnstile
