import Turnstile.Formula.Parser
import Turnstile.Proofs.Utf8

/-! The grammar of formulas, and the proof that the parser accepts exactly its phrases, each
with one tree. Completeness says what a phrase does to a state of the parser. Soundness says
which tokens a state stands for: what was read is always the beginning of a phrase. -/
namespace Turnstile

namespace Formula

inductive Category where
  | implication
  | disjunction
  | conjunction
  | negation
  | primary
  deriving DecidableEq, Repr

/-- The grammar: `Derives category tokens f` says that the tokens, all of them and in this
order, are a phrase of the category and stand for the tree `f`. -/
inductive Derives : Category → List Token → Formula → Prop where
  | name {token : Token} (kind : token.kind = .name) :
      Derives .primary [token] (var token.text)
  | group {left right : Token} (opens : left.kind = .leftParen) (closes : right.kind = .rightParen)
      (inner : Derives .implication ts f) : Derives .primary (left :: ts ++ [right]) f
  | ofPrimary (operand : Derives .primary ts f) : Derives .negation ts f
  | not {sign : Token} (kind : sign.kind = .not) (operand : Derives .negation ts f) :
      Derives .negation (sign :: ts) (not f)
  | ofNegation (operand : Derives .negation ts f) : Derives .conjunction ts f
  | and {sign : Token} (kind : sign.kind = .and) (left : Derives .conjunction ts f)
      (right : Derives .negation us g) : Derives .conjunction (ts ++ sign :: us) (and f g)
  | ofConjunction (operand : Derives .conjunction ts f) : Derives .disjunction ts f
  | or {sign : Token} (kind : sign.kind = .or) (left : Derives .disjunction ts f)
      (right : Derives .conjunction us g) : Derives .disjunction (ts ++ sign :: us) (or f g)
  | ofDisjunction (operand : Derives .disjunction ts f) : Derives .implication ts f
  | implies {sign : Token} (kind : sign.kind = .implies) (left : Derives .disjunction ts f)
      (right : Derives .implication us g) :
      Derives .implication (ts ++ sign :: us) (implies f g)

namespace State

inductive Reads : State → List Token → State → Prop where
  | nil : Reads state [] state
  | cons {token : Token} (step : state.step token = .ok next) (rest : Reads next tokens final) :
      Reads state (token :: tokens) final

theorem Reads.append (first : Reads state ts next) (second : Reads next us final) :
    Reads state (ts ++ us) final := by
  induction first with
  | nil => exact second
  | cons step _ ih => exact .cons step (ih second)

theorem run_of_reads (reads : Reads state ts next) (rest : List Token) :
    state.run (ts ++ rest) = next.run rest := by
  induction reads with
  | nil => rfl
  | cons step _ ih =>
    simp only [List.cons_append, run, step]
    exact ih

end State

theorem Level.negate_not (n : Nat) (f : Formula) :
    Level.negate n (not f) = not (Level.negate n f) := by
  induction n with
  | zero => rfl
  | succ n ih => rw [Level.negate, ih, Level.negate]

/-- What the tokens of a phrase do to a state that waits for an operand. Operators that
wait on the left of the phrase get it as a whole only if they bind tighter. -/
def Category.Completes : Category → List Token → Formula → Prop
  | .primary, ts, f | .negation, ts, f => ∀ outer level,
      State.Reads ⟨outer, level, none⟩ ts (State.complete ⟨outer, level, none⟩ f)
  | .conjunction, ts, f => ∀ outer antecedents left,
      State.Reads ⟨outer, ⟨antecedents, left, none, 0⟩, none⟩ ts
        ⟨outer, ⟨antecedents, left, none, 0⟩, some f⟩
  | .disjunction, ts, f => ∀ outer antecedents, ∃ left g,
      State.Reads ⟨outer, ⟨antecedents, none, none, 0⟩, none⟩ ts
        ⟨outer, ⟨antecedents, left, none, 0⟩, some g⟩ ∧
      Level.disjoin ⟨antecedents, left, none, 0⟩ g = f
  | .implication, ts, f => ∀ outer antecedents, ∃ level g,
      State.Reads ⟨outer, ⟨antecedents, none, none, 0⟩, none⟩ ts ⟨outer, level, some g⟩ ∧
      level.close g = antecedents.foldl (fun right left => implies left right) f

theorem Derives.completes (derivation : Derives category ts f) : category.Completes ts f := by
  induction derivation with
  | name kind =>
    intro outer level
    refine .cons ?_ .nil
    simp [State.step, kind]
  | group opens closes inner ih =>
    intro outer level
    obtain ⟨last, g, reads, closed⟩ := ih (level :: outer) []
    refine .cons ?_ (reads.append (.cons ?_ .nil))
    · simp [State.step, opens]
    · simp only [State.step, closes, closed, List.foldl_nil]
  | ofPrimary operand ih => exact ih
  | not kind operand ih =>
    intro outer level
    have reads := ih outer { level with negations := level.negations + 1 }
    refine .cons (by simp [State.step, kind]; rfl) ?_
    simpa only [State.complete, Level.conjoin, Level.negate, Level.negate_not] using reads
  | ofNegation operand ih =>
    intro outer antecedents left
    exact ih outer ⟨antecedents, left, none, 0⟩
  | and kind left right ihl ihr =>
    intro outer antecedents d
    refine (ihl outer antecedents d).append (.cons ?_ (ihr outer ⟨antecedents, d, some _, 0⟩))
    simp only [State.step, kind]
  | ofConjunction operand ih =>
    intro outer antecedents
    exact ⟨none, _, ih outer antecedents none, rfl⟩
  | or kind left right ihl ihr =>
    intro outer antecedents
    obtain ⟨d, g, reads, joined⟩ := ihl outer antecedents
    refine ⟨some _, _, reads.append (.cons ?_ (ihr outer antecedents (some _))), rfl⟩
    simp only [State.step, kind, joined]
  | ofDisjunction operand ih =>
    intro outer antecedents
    obtain ⟨d, g, reads, joined⟩ := ih outer antecedents
    exact ⟨_, g, reads, by rw [Level.close, joined]⟩
  | implies kind left right ihl ihr =>
    intro outer antecedents
    obtain ⟨d, g, reads, joined⟩ := ihl outer antecedents
    obtain ⟨level, h, reads', closed⟩ := ihr outer (_ :: antecedents)
    refine ⟨level, h, reads.append (.cons ?_ reads'), closed⟩
    simp only [State.step, kind, joined]

/-- Tokens of antecedents that wait for their consequents, each before its sign `->`. The
formulas are given with the last one first. -/
inductive Level.Antecedents : List Token → List Formula → Prop where
  | nil : Antecedents [] []
  | cons {sign : Token} (kind : sign.kind = .implies) (outer : Antecedents ts fs)
      (left : Derives .disjunction us f) : Antecedents (ts ++ (us ++ [sign])) (f :: fs)

def Level.LeftOperand (category : Category) (kind : Token.Kind) (ts : List Token) :
    Option Formula → Prop
  | none => ts = []
  | some f => ∃ us sign, ts = us ++ [sign] ∧ sign.kind = kind ∧ Derives category us f

inductive Level.Spells (level : Level) : List Token → Prop where
  | intro (antecedents : Level.Antecedents as level.antecedents)
      (disjunction : Level.LeftOperand .disjunction .or ds level.disjunction)
      (conjunction : Level.LeftOperand .conjunction .and cs level.conjunction)
      (negations : ∀ sign ∈ ns, sign.kind = .not) (count : level.negations = ns.length) :
      Spells level (as ++ (ds ++ (cs ++ ns)))

inductive State.Outer : List Level → List Token → Prop where
  | nil : Outer [] []
  | cons {level : Level} {left : Token} (opens : left.kind = .leftParen)
      (outer : Outer levels os) (inner : level.Spells ls) :
      Outer (level :: levels) (os ++ (ls ++ [left]))

/-- The tokens that lead to a state. After an operand, no `&` and no `~` waits. -/
inductive State.Spells : State → List Token → Prop where
  | waiting {level : Level} (outer : State.Outer levels os) (inner : level.Spells ls) :
      Spells ⟨levels, level, none⟩ (os ++ ls)
  | operand (outer : State.Outer levels os) (inner : Level.Spells ⟨fs, d, none, 0⟩ ls)
      (last : Derives .conjunction us f) :
      Spells ⟨levels, ⟨fs, d, none, 0⟩, some f⟩ (os ++ (ls ++ us))

theorem Derives.negate {ns : List Token} (signs : ∀ sign ∈ ns, sign.kind = .not)
    (operand : Derives .negation ts f) :
    Derives .negation (ns ++ ts) (Level.negate ns.length f) := by
  induction ns with
  | nil => exact operand
  | cons sign ns ih =>
    obtain ⟨kind, signs⟩ := List.forall_mem_cons.mp signs
    exact .not kind (ih signs)

theorem Derives.conjoin {level : Level}
    (waiting : Level.LeftOperand .conjunction .and cs level.conjunction)
    (operand : Derives .negation us (Level.negate level.negations f)) :
    Derives .conjunction (cs ++ us) (level.conjoin f) := by
  rw [Level.conjoin]
  cases left : level.conjunction with
  | some g =>
    rw [left] at waiting
    obtain ⟨ts, sign, rfl, kind, derivation⟩ := waiting
    simpa using Derives.and kind derivation operand
  | none =>
    rw [left] at waiting
    subst waiting
    exact .ofNegation operand

theorem Derives.disjoin {level : Level}
    (waiting : Level.LeftOperand .disjunction .or ds level.disjunction)
    (operand : Derives .conjunction us f) :
    Derives .disjunction (ds ++ us) (level.disjoin f) := by
  rw [Level.disjoin]
  cases left : level.disjunction with
  | some g =>
    rw [left] at waiting
    obtain ⟨ts, sign, rfl, kind, derivation⟩ := waiting
    simpa using Derives.or kind derivation operand
  | none =>
    rw [left] at waiting
    subst waiting
    exact .ofConjunction operand

theorem Derives.discharge (waiting : Level.Antecedents as fs)
    (consequent : Derives .implication us g) :
    Derives .implication (as ++ us)
      (fs.foldl (fun right left => Formula.implies left right) g) := by
  induction waiting generalizing us g with
  | nil => exact consequent
  | cons kind _ left ih => simpa using ih (.implies kind left consequent)

theorem Level.Spells.split (inner : Level.Spells ⟨fs, d, none, 0⟩ ls) :
    ∃ as ds, ls = as ++ ds ∧ Level.Antecedents as fs ∧
      Level.LeftOperand .disjunction .or ds d := by
  cases inner with
  | @intro as ds cs ns antecedents disjunction conjunction negations count =>
    have noSigns : ns = [] := List.length_eq_zero_iff.mp count.symm
    have noLeft : cs = [] := conjunction
    subst noSigns noLeft
    exact ⟨as, ds, by simp, antecedents, disjunction⟩

/-- After an operand, the tokens of a level are those of its antecedents and a disjunction. -/
theorem Level.Spells.joined (inner : Level.Spells ⟨fs, d, none, 0⟩ ls)
    (operand : Derives .conjunction us f) :
    ∃ as vs, ls ++ us = as ++ vs ∧ Level.Antecedents as fs ∧
      Derives .disjunction vs (Level.disjoin ⟨fs, d, none, 0⟩ f) := by
  obtain ⟨as, ds, rfl, antecedents, disjunction⟩ := inner.split
  exact ⟨as, ds ++ us, List.append_assoc .., antecedents, Derives.disjoin disjunction operand⟩

theorem Derives.close (inner : Level.Spells ⟨fs, d, none, 0⟩ ls)
    (operand : Derives .conjunction us f) :
    Derives .implication (ls ++ us) (Level.close ⟨fs, d, none, 0⟩ f) := by
  obtain ⟨as, vs, tokens, antecedents, joined⟩ := inner.joined operand
  rw [tokens]
  exact Derives.discharge antecedents (.ofDisjunction joined)

theorem Level.Spells.empty : Level.Spells {} [] :=
  show Level.Spells {} ([] ++ ([] ++ ([] ++ []))) from .intro .nil rfl rfl (by simp) rfl

theorem Level.Spells.not {level : Level} {sign : Token} (inner : level.Spells ls)
    (kind : sign.kind = .not) :
    Level.Spells { level with negations := level.negations + 1 } (ls ++ [sign]) := by
  cases inner with
  | @intro as ds cs ns antecedents disjunction conjunction negations count =>
    have signs : ∀ s ∈ ns ++ [sign], s.kind = .not := by
      simpa [or_imp, forall_and, kind] using negations
    have spells : Level.Spells { level with negations := level.negations + 1 }
        (as ++ (ds ++ (cs ++ (ns ++ [sign])))) :=
      .intro antecedents disjunction conjunction signs (by simp [count])
    simpa using spells

/-- An operand that is complete becomes the left operand of `&`. -/
theorem Level.Spells.and {sign : Token} (inner : Level.Spells ⟨fs, d, none, 0⟩ ls)
    (kind : sign.kind = .and) (operand : Derives .conjunction us f) :
    Level.Spells ⟨fs, d, some f, 0⟩ (ls ++ (us ++ [sign])) := by
  obtain ⟨as, ds, rfl, antecedents, disjunction⟩ := inner.split
  have spells : Level.Spells ⟨fs, d, some f, 0⟩ (as ++ (ds ++ ((us ++ [sign]) ++ []))) :=
    .intro antecedents disjunction ⟨us, sign, rfl, kind, operand⟩ (by simp) rfl
  simpa using spells

theorem Level.Spells.or {sign : Token} (inner : Level.Spells ⟨fs, d, none, 0⟩ ls)
    (kind : sign.kind = .or) (operand : Derives .conjunction us f) :
    Level.Spells ⟨fs, some (Level.disjoin ⟨fs, d, none, 0⟩ f), none, 0⟩
      (ls ++ (us ++ [sign])) := by
  obtain ⟨as, vs, tokens, antecedents, joined⟩ := inner.joined operand
  have spells : Level.Spells ⟨fs, some (Level.disjoin ⟨fs, d, none, 0⟩ f), none, 0⟩
      (as ++ ((vs ++ [sign]) ++ ([] ++ []))) :=
    .intro antecedents ⟨vs, sign, rfl, kind, joined⟩ rfl (by simp) rfl
  rw [← List.append_assoc, tokens]
  simpa using spells

theorem Level.Spells.implies {sign : Token} (inner : Level.Spells ⟨fs, d, none, 0⟩ ls)
    (kind : sign.kind = .implies) (operand : Derives .conjunction us f) :
    Level.Spells ⟨Level.disjoin ⟨fs, d, none, 0⟩ f :: fs, none, none, 0⟩
      (ls ++ (us ++ [sign])) := by
  obtain ⟨as, vs, tokens, antecedents, joined⟩ := inner.joined operand
  have spells : Level.Spells ⟨Level.disjoin ⟨fs, d, none, 0⟩ f :: fs, none, none, 0⟩
      ((as ++ (vs ++ [sign])) ++ ([] ++ ([] ++ []))) :=
    .intro (.cons kind antecedents joined) rfl rfl (by simp) rfl
  rw [← List.append_assoc, tokens]
  simpa using spells

theorem State.Spells.complete {level : Level} (outer : State.Outer levels os)
    (inner : level.Spells ls) (last : Derives .primary us f) :
    State.Spells (State.complete ⟨levels, level, none⟩ f) (os ++ (ls ++ us)) := by
  cases inner with
  | @intro as ds cs ns antecedents disjunction conjunction negations count =>
    have negated := Derives.negate negations (.ofPrimary last)
    rw [← count] at negated
    have joined := Derives.conjoin conjunction negated
    have frame : Level.Spells ⟨level.antecedents, level.disjunction, none, 0⟩
        (as ++ (ds ++ ([] ++ []))) :=
      .intro antecedents disjunction rfl (by simp) rfl
    have spells := State.Spells.operand outer frame joined
    simpa [State.complete] using spells

/-- Each token that is not refused goes on with what was read before it. -/
theorem State.Spells.step (spells : State.Spells state ts) (next : state.step token = .ok state') :
    State.Spells state' (ts ++ [token]) := by
  cases spells with
  | @waiting levels os ls level outer inner =>
    cases kind : token.kind <;> simp only [State.step, kind, Except.ok.injEq, reduceCtorEq] at next
    case name =>
      subst next
      simpa using State.Spells.complete outer inner (.name kind)
    case not =>
      subst next
      simpa using State.Spells.waiting outer (inner.not kind)
    case leftParen =>
      subst next
      simpa using State.Spells.waiting (.cons kind outer inner) .empty
  | @operand levels os fs d ls us f outer inner last =>
    cases kind : token.kind <;> simp only [State.step, kind, Except.ok.injEq, reduceCtorEq] at next
    case and =>
      subst next
      simpa using State.Spells.waiting outer (inner.and kind last)
    case or =>
      subst next
      simpa using State.Spells.waiting outer (inner.or kind last)
    case implies =>
      subst next
      simpa using State.Spells.waiting outer (inner.implies kind last)
    case rightParen =>
      cases outer with
      | nil => simp at next
      | cons opens outer inner' =>
        simp only [Except.ok.injEq] at next
        subst next
        simpa using State.Spells.complete outer inner' (.group opens kind (.close inner last))

/-- A run that gives a formula has read a phrase: the tokens of its first state and all
those that were left. -/
theorem State.Spells.run (spells : State.Spells state ts) (result : state.run us = .ok f) :
    Derives .implication (ts ++ us) f := by
  induction us generalizing state ts with
  | nil =>
    cases spells with
    | waiting outer inner => simp [State.run, State.finish, Except.mapError] at result
    | operand outer inner last =>
      cases outer with
      | nil =>
        simp only [State.run, State.finish, Except.mapError, List.isEmpty_nil, if_true,
          Except.ok.injEq] at result
        subst result
        simpa using Derives.close inner last
      | cons opens outer inner' => simp [State.run, State.finish, Except.mapError] at result
  | cons token us ih =>
    cases next : state.step token with
    | error refusal => simp [State.run, next] at result
    | ok state' =>
      simp only [State.run, next] at result
      simpa using ih (spells.step next) result

theorem run_eq_ok_iff : State.run {} ts = .ok f ↔ Derives .implication ts f := by
  constructor
  · intro result
    exact (State.Spells.waiting .nil .empty).run result
  · intro derivation
    obtain ⟨level, g, reads, closed⟩ := derivation.completes [] []
    have final := State.run_of_reads reads []
    rw [List.append_nil] at final
    rw [final]
    simp [State.run, State.finish, Except.mapError, closed]

theorem parse_eq_ok_iff : parse s = .ok f ↔
    ∃ ts, Token.tokenize s = .ok ts ∧ Derives .implication ts f := by
  rw [parse]
  cases tokens : Token.tokenize s with
  | error e => simp
  | ok ts =>
    simp only [Except.ok.injEq, exists_eq_left', ← run_eq_ok_iff]
    split <;> simp_all

/-- A phrase of any category is also one of the loosest. -/
theorem Derives.loosest (derivation : Derives category ts f) : Derives .implication ts f := by
  cases category with
  | implication => exact derivation
  | disjunction => exact .ofDisjunction derivation
  | conjunction => exact .ofDisjunction (.ofConjunction derivation)
  | negation => exact .ofDisjunction (.ofConjunction (.ofNegation derivation))
  | primary => exact .ofDisjunction (.ofConjunction (.ofNegation (.ofPrimary derivation)))

/-- The grammar is unambiguous, since the parser gives one answer. -/
theorem Derives.unique (first : Derives category ts f) (second : Derives category ts g) :
    f = g := by
  have result := run_eq_ok_iff.mpr first.loosest
  rw [run_eq_ok_iff.mpr second.loosest] at result
  exact (Except.ok.inj result).symm

/-- The parser accepts the texts whose tokens are an implication of the grammar, and no
others. Its answer is the only tree that the grammar gives to them. -/
theorem parse_accepts_exactly_grammar (s : Text) (f : Formula) :
    (parse s = .ok f ↔ ∃ tokens, Token.tokenize s = .ok tokens ∧ Derives .implication tokens f) ∧
    ∀ category tokens g h, Derives category tokens g → Derives category tokens h → g = h :=
  ⟨parse_eq_ok_iff, fun _ _ _ _ => Derives.unique⟩

/-- The operators in the order of their strength, `->` to the right: the tokens of
`~P & Q | R -> S -> T` derive one tree, which is the one that is read. -/
theorem parse_accepts_exactly_grammar_by_strength :
    let text : Text := "~P & Q | R -> S -> T"
    let f := implies (or (and (not (var "P")) (var "Q")) (var "R")) (implies (var "S") (var "T"))
    parse text = .ok f ∧
    ∃ tokens, Token.tokenize text = .ok tokens ∧ ∀ g, Derives .implication tokens g ↔ g = f := by
  intro text f
  have tokens : Token.tokenize text = .ok (Token.scan 0 [] "~P & Q | R -> S -> T".toList) := by
    rw [Token.tokenize, show text = Text.encode "~P & Q | R -> S -> T".toList from rfl,
      Text.chars?_encode]
  have result : parse text = .ok f := by
    rw [parse, tokens]
    rfl
  have accepts := parse_accepts_exactly_grammar text
  obtain ⟨ts, tokenized, derivation⟩ := (accepts f).1.mp result
  refine ⟨result, ts, tokenized, fun g => ⟨fun other => ?_, fun same => same ▸ derivation⟩⟩
  exact (accepts g).2 _ _ _ _ other derivation

end Formula

end Turnstile
