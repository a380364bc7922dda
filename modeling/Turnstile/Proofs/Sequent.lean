import Turnstile.Argument.Basic
import Turnstile.Proofs.Argument
import Turnstile.Proofs.RoundTrip
import Turnstile.Proofs.Splitting

/-! An argument whose texts hold neither the sign `|-` nor a comma, with commas allowed in the
conclusion, is read back from its sequent, and only such arguments are read. The canonical texts
of formulas never hold the sign: a blank stands on both sides of each operator in them, and no
name holds the bar. -/
namespace Turnstile

structure Text.IsSide (s : Text) : Prop where
  trimmed : s.trim = s
  nonempty : s ≠ []
  signless : ¬[0x7C, 0x2D] <:+: s

namespace Argument

structure Writable (a : Argument) : Prop where
  unnamed : a.name = []
  premises : ∀ p ∈ a.premises, p.IsSide ∧ 0x2C ∉ p
  conclusion : a.conclusion.IsSide

theorem blanks_eq_nil_iff {a : Argument} :
    a.blanks = [] ↔ (∀ p ∈ a.premises, p.trim ≠ []) ∧ a.conclusion.trim ≠ [] := by
  have texts : a.premises = a.premises.zipIdx.map Prod.fst := by simp
  rw [texts, List.forall_mem_map, blanks, List.append_eq_nil_iff, List.filterMap_eq_nil_iff]
  simp

theorem validate_eq_ok_iff {a : Argument} :
    a.validate = .ok () ↔ (∀ p ∈ a.premises, p.trim ≠ []) ∧ a.conclusion.trim ≠ [] := by
  rw [← blanks_eq_nil_iff, validate]
  split <;> simp_all

theorem premisesOf_eq (left : Text) : premisesOf left =
    if left.trim = [] then [] else (left.splitOn 0x2C).map Text.trim := by
  have comma := @Text.map_trim_splitOn_trim 0x2C (by decide) (by decide) left
  simp only [premisesOf, List.isEmpty_iff, Text.splitByte_eq_splitOn, comma]

theorem ofSequent_eq_ok_iff {s : Text} {a : Argument} : ofSequent s = .ok a ↔
    ∃ l r : Text, s = l ++ 0x7C :: 0x2D :: r ∧ ¬[0x7C, 0x2D] <:+: l ∧ ¬[0x7C, 0x2D] <:+: r ∧
      a = { premises := premisesOf l, conclusion := r.trim } ∧ a.validate = .ok () := by
  constructor
  · intro accepted
    rw [ofSequent] at accepted
    split at accepted
    · next l r sides =>
      obtain ⟨text, left, right⟩ := (Text.splitPair_eq_pair_iff (by decide)).mp sides
      dsimp only at accepted
      split at accepted
      · next valid =>
        obtain rfl := Except.ok.inj accepted
        exact ⟨l, r, text, left, right, rfl, valid⟩
      · contradiction
    · contradiction
  · rintro ⟨l, r, text, left, right, rfl, valid⟩
    have sides := (Text.splitPair_eq_pair_iff (by decide)).mpr ⟨text, left, right⟩
    simp only [ofSequent, sides, valid]

theorem premisesOf_blanks_append (blanks : Text.Blanks before) (left : Text) :
    premisesOf (before ++ left) = premisesOf left := by
  rw [premisesOf_eq, premisesOf_eq, Text.trim_blanks_append blanks,
    Text.map_trim_splitOn_blanks_append (by decide) (by decide) blanks]

/-- Trimming does not touch the sign of a sequent. -/
theorem exists_trim_sides (l r : Text) :
    ∃ before l' r' after, Text.Blanks before ∧ Text.Blanks after ∧ l = before ++ l' ∧
      r = r' ++ after ∧ Text.trim (l ++ 0x7C :: 0x2D :: r) = l' ++ 0x7C :: 0x2D :: r' := by
  obtain ⟨before, l', right, after, blanksBefore, blanksAfter, rfl, rest, trimmed⟩ :=
    @Text.exists_trim_of_sign 0x7C (by decide) (by decide) l (0x2D :: r)
  cases right with
  | nil =>
    rw [List.nil_append] at rest
    have member : 0x2D ∈ after := rest ▸ List.mem_cons_self
    exact absurd member (blanksAfter.not_mem (by decide) (by decide))
  | cons b r' =>
    obtain ⟨rfl, rfl⟩ := List.cons.inj rest
    exact ⟨before, l', r', after, blanksBefore, blanksAfter, rfl, rfl, trimmed⟩

/-- A sequent may be trimmed before it is read. -/
theorem ofSequent_trim {s : Text} {a : Argument} (accepted : ofSequent s = .ok a) :
    ofSequent s.trim = .ok a := by
  obtain ⟨l, r, rfl, left, right, rfl, valid⟩ := ofSequent_eq_ok_iff.mp accepted
  obtain ⟨before, l', r', after, blanksBefore, blanksAfter, rfl, rfl, trimmed⟩ :=
    exists_trim_sides l r
  refine ofSequent_eq_ok_iff.mpr
    ⟨l', r', trimmed, fun inside => left ?_, fun inside => right ?_, ?_, valid⟩
  · exact inside.trans (List.suffix_append before l').isInfix
  · exact inside.trans (List.prefix_append r' after).isInfix
  · rw [premisesOf_blanks_append blanksBefore, Text.trim_append_blanks r' blanksAfter]

theorem sign_infix_trim {s : Text} (sign : [0x7C, 0x2D] <:+: s) : [0x7C, 0x2D] <:+: s.trim := by
  obtain ⟨l, r, rfl⟩ := sign
  obtain ⟨_, l', r', _, _, _, _, _, trimmed⟩ := exists_trim_sides l r
  rw [List.append_assoc]
  exact trimmed ▸ ⟨l', r', by simp⟩

theorem sequent_eq (a : Argument) : a.sequent =
    (Text.join ", " a.premises ++ [0x20]) ++ 0x7C :: 0x2D :: (0x20 :: a.conclusion) := by
  rw [sequent, List.append_assoc, List.append_assoc]
  rfl

theorem signless_join {ts : List Text} (sides : ∀ t ∈ ts, t.IsSide) :
    ¬[0x7C, 0x2D] <:+: Text.join ", " ts := by
  fun_induction Text.join (", " : Text) ts with
  | case1 => simp
  | case2 t => exact (sides t (by simp)).signless
  | case3 t ts more ih =>
    obtain ⟨first, sides⟩ := List.forall_mem_cons.mp sides
    have separator : ¬[0x7C, 0x2D] <:+: Text.ofString ", " := by decide
    exact Text.absent_append first.signless
      (Text.absent_append separator (ih sides) (.inl (by decide)))
      (.inr (show some (0x2C : UInt8) ≠ some 0x2D by decide))

theorem map_trim_splitOn_join {ts : List Text} (nonempty : ts ≠ [])
    (parts : ∀ t ∈ ts, t.trim = t ∧ 0x2C ∉ t) :
    ((Text.join ", " ts).splitOn 0x2C).map Text.trim = ts := by
  fun_induction Text.join (", " : Text) ts with
  | case1 => contradiction
  | case2 t =>
    obtain ⟨trimmed, comma⟩ := parts t (by simp)
    rw [List.splitOn_eq_singleton comma, List.map_singleton, trimmed]
  | case3 t ts more ih =>
    obtain ⟨⟨trimmed, comma⟩, parts⟩ := List.forall_mem_cons.mp parts
    have text : t ++ (Text.ofString ", " ++ Text.join ", " ts) =
        t ++ 0x2C :: ([0x20] ++ Text.join ", " ts) := rfl
    rw [text, List.splitOn_append_cons_self_of_not_mem comma, List.map_cons, trimmed,
      Text.map_trim_splitOn_blanks_append (by decide) (by decide) Text.blanks_space,
      ih (by simpa using more) parts]

/-- The premises that are written before the sign are read back. -/
theorem premisesOf_join {ts : List Text} (parts : ∀ t ∈ ts, t.IsSide ∧ 0x2C ∉ t) :
    premisesOf (Text.join ", " ts ++ [0x20]) = ts := by
  rw [premisesOf_eq, Text.trim_append_blanks _ Text.blanks_space,
    Text.map_trim_splitOn_append_blanks (by decide) (by decide) _ Text.blanks_space]
  cases ts with
  | nil => rw [Text.join, Text.trim_nil, if_pos rfl]
  | cons t ts =>
    have read := map_trim_splitOn_join (List.cons_ne_nil t ts)
      fun u member => ⟨(parts u member).1.trimmed, (parts u member).2⟩
    rw [read, if_neg]
    intro blank
    rw [← Text.map_trim_splitOn_trim (by decide) (by decide), blank] at read
    have empty : Text.trim [] = t := (List.cons.inj read).1
    exact (parts t List.mem_cons_self).1.nonempty (by rw [← empty, Text.trim_nil])

theorem ofSequent_sequent {a : Argument} (writable : a.Writable) :
    ofSequent a.sequent = .ok a := by
  obtain ⟨unnamed, premises, conclusion⟩ := writable
  obtain ⟨name, texts, last⟩ := a
  obtain rfl : name = [] := unnamed
  have blank : ¬[0x7C, 0x2D] <:+: [(0x20 : UInt8)] := by decide
  refine ofSequent_eq_ok_iff.mpr ⟨_, _, sequent_eq _, ?_, ?_, ?_, ?_⟩
  · exact Text.absent_append (signless_join fun t member => (premises t member).1) blank
      (.inr (by decide))
  · exact Text.absent_append blank conclusion.signless (.inl (by decide))
  · have trimmed : Text.trim (0x20 :: last) = last :=
      (Text.trim_blanks_append Text.blanks_space last).trans conclusion.trimmed
    rw [trimmed, premisesOf_join premises]
  · refine validate_eq_ok_iff.mpr ⟨fun p member => ?_, ?_⟩
    · rw [(premises p member).1.trimmed]
      exact (premises p member).1.nonempty
    · rw [conclusion.trimmed]
      exact conclusion.nonempty

/-- What is read from a sequent can be written as one. -/
theorem writable_of_ofSequent {s : Text} {a : Argument} (accepted : ofSequent s = .ok a) :
    a.Writable := by
  obtain ⟨l, r, _, left, right, rfl, valid⟩ := ofSequent_eq_ok_iff.mp accepted
  obtain ⟨premisesFilled, conclusionFilled⟩ := validate_eq_ok_iff.mp valid
  have side {part t : Text} (inside : part <:+: t) (signless : ¬[0x7C, 0x2D] <:+: t)
      (filled : part.trim.trim ≠ []) : part.trim.IsSide :=
    ⟨part.trim_trim, part.trim_trim ▸ filled,
      fun sign => signless (sign.trans (part.trim_infix.trans inside))⟩
  refine ⟨rfl, fun p member => ?_, side List.infix_rfl right conclusionFilled⟩
  have filled := premisesFilled p member
  rw [premisesOf_eq] at member
  split at member
  · contradiction
  · obtain ⟨part, isPart, rfl⟩ := List.mem_map.mp member
    obtain ⟨inside, comma⟩ := Text.infix_of_mem_splitOn isPart
    exact ⟨side inside left filled, fun held => comma (part.trim_infix.subset held)⟩

/-- No part is blank exactly if the side after the sign is not, and the side before it is blank
as a whole or has no blank part. -/
theorem validate_sides_iff {l r : Text} :
    validate { premises := premisesOf l, conclusion := r.trim } = .ok () ↔
      ¬Text.Blanks r ∧ (Text.Blanks l ∨ ∀ p ∈ l.splitOn 0x2C, ¬Text.Blanks p) := by
  have filled (t : Text) : t.trim.trim ≠ [] ↔ ¬Text.Blanks t := by
    rw [Text.trim_trim, ne_eq, Text.trim_eq_nil_iff]
  rw [validate_eq_ok_iff, premisesOf_eq, filled, and_comm]
  split
  · next empty => simp [Text.trim_eq_nil_iff.mp empty]
  · next notEmpty =>
    have notBlank : ¬Text.Blanks l := mt Text.trim_eq_nil_iff.mpr notEmpty
    simp only [List.forall_mem_map, filled, notBlank, false_or]

/-- An argument is read back from its sequent exactly if it can be written as one. A text is read
exactly if the sign stands in it once, what follows the sign is not blank, and what comes before
it is blank or has no blank part between commas. These parts, trimmed, are the texts of the
argument that is read. It can be written as a sequent, which is again read as this argument. -/
theorem ofSequent_accepts_exactly_sequents :
    (∀ a : Argument, ofSequent a.sequent = .ok a ↔ a.Writable) ∧
    ∀ s : Text,
      ((∃ a, ofSequent s = .ok a) ↔ ∃ l r, Text.StandsOnce "|-" s l r ∧ ¬Text.Blanks r ∧
        (Text.Blanks l ∨ ∀ p ∈ l.splitOn 0x2C, ¬Text.Blanks p)) ∧
      ∀ a, ofSequent s = .ok a →
        a.Writable ∧ ofSequent a.sequent = ofSequent s ∧
        ∃ l r, Text.StandsOnce "|-" s l r ∧ a.conclusion = r.trim ∧
          (Text.Blanks l ∧ a.premises = [] ∨
            ¬Text.Blanks l ∧ a.premises = (l.splitOn 0x2C).map Text.trim) := by
  have once {s l r : Text} : Text.StandsOnce "|-" s l r ↔ s = l ++ 0x7C :: 0x2D :: r ∧
      ¬[0x7C, 0x2D] <:+: l ∧ ¬[0x7C, 0x2D] <:+: r := Text.standsOnce_iff (by decide)
  refine ⟨fun a => ⟨writable_of_ofSequent, ofSequent_sequent⟩, fun s => ⟨?_, fun a accepted => ?_⟩⟩
  · constructor
    · rintro ⟨a, accepted⟩
      obtain ⟨l, r, text, left, right, rfl, valid⟩ := ofSequent_eq_ok_iff.mp accepted
      exact ⟨l, r, once.mpr ⟨text, left, right⟩, validate_sides_iff.mp valid⟩
    · rintro ⟨l, r, sign, filled⟩
      obtain ⟨text, left, right⟩ := once.mp sign
      exact ⟨_, ofSequent_eq_ok_iff.mpr
        ⟨l, r, text, left, right, rfl, validate_sides_iff.mpr filled⟩⟩
  · have writable := writable_of_ofSequent accepted
    refine ⟨writable, by rw [ofSequent_sequent writable, accepted], ?_⟩
    obtain ⟨l, r, text, left, right, rfl, _⟩ := ofSequent_eq_ok_iff.mp accepted
    refine ⟨l, r, once.mpr ⟨text, left, right⟩, rfl, ?_⟩
    rw [premisesOf_eq, ← Text.trim_eq_nil_iff]
    by_cases blank : l.trim = [] <;> simp [blank]

/-- A premise may end with a bar, a conclusion may start with a minus sign and hold commas, and a
byte that starts no character is kept. The blank before it is a no-break space. -/
example : ofSequent ([0xC2, 0xA0, 0xFF] ++ Text.ofString "| , R|- -Q,S ") =
    .ok { premises := [0xFF :: Text.ofString "|", "R"], conclusion := "-Q,S" } := by
  decide +kernel

end Argument

namespace Formula

theorem bar_not_mem {name : Text} (isName : name.IsName) : 0x7C ∉ name :=
  isName.not_mem (by decide) (.inr (by decide))

/-- Two texts with an operator between them, in parentheses. Blanks keep the operator apart. -/
theorem signless_binary {l r op : Text} (left : ¬[0x7C, 0x2D] <:+: l)
    (right : ¬[0x7C, 0x2D] <:+: r) (between : ¬[0x7C, 0x2D] <:+: op)
    (first : op.head? = some 0x20) (last : op.getLast? = some 0x20) :
    ¬[0x7C, 0x2D] <:+: Text.ofString "(" ++ (l ++ (op ++ (r ++ Text.ofString ")"))) := by
  have closed : ¬[0x7C, 0x2D] <:+: r ++ Text.ofString ")" :=
    Text.absent_append right (by decide) (.inr (by decide))
  have apart : (op ++ (r ++ Text.ofString ")")).head? ≠ some 0x2D := by
    simp [List.head?_append, first]
  apply Text.absent_append (by decide) _ (.inl (by decide))
  apply Text.absent_append left _ (.inr apart)
  apply Text.absent_append between closed (.inl _)
  rw [last]
  decide

theorem Named.signless_canonical {f : Formula} (named : f.Named) :
    ¬[0x7C, 0x2D] <:+: f.canonical := by
  induction f with
  | var name =>
    rw [canonical_var]
    exact Text.absent_of_not_mem (bar_not_mem (named_var.mp named))
  | not f ih =>
    have operand := ih (named_not.mp named)
    by_cases atom : ∃ name, f = var name
    · obtain ⟨name, rfl⟩ := atom
      rw [canonical_var] at operand
      rw [canonical_not_var]
      exact Text.absent_append (by decide) operand (.inl (by decide))
    · rw [canonical_not_of_compound (not_exists.mp atom)]
      exact Text.absent_append (by decide)
        (Text.absent_append operand (by decide) (.inr (by decide))) (.inl (by decide))
  | and l r ihl ihr =>
    obtain ⟨left, right⟩ := named_and.mp named
    rw [canonical_and]
    exact signless_binary (ihl left) (ihr right) (by decide) (by decide) (by decide)
  | or l r ihl ihr =>
    obtain ⟨left, right⟩ := named_or.mp named
    rw [canonical_or]
    exact signless_binary (ihl left) (ihr right) (by decide) (by decide) (by decide)
  | implies l r ihl ihr =>
    obtain ⟨left, right⟩ := named_implies.mp named
    rw [canonical_implies]
    exact signless_binary (ihl left) (ihr right) (by decide) (by decide) (by decide)

theorem trim_group (l op r : Text) :
    Text.trim (Text.ofString "(" ++ (l ++ (op ++ (r ++ Text.ofString ")")))) =
      Text.ofString "(" ++ (l ++ (op ++ (r ++ Text.ofString ")"))) := by
  have grouped : Text.ofString "(" ++ (l ++ (op ++ (r ++ Text.ofString ")"))) =
      0x28 :: ((l ++ (op ++ r)) ++ [0x29]) := by
    rw [List.append_assoc, List.append_assoc]
    rfl
  rw [grouped]
  exact Text.trim_of_signs (by decide) (by decide) (by decide) (by decide)

theorem Named.trim_canonical {f : Formula} (named : f.Named) : f.canonical.trim = f.canonical := by
  cases f with
  | var name =>
    obtain ⟨cs, rfl, _, chars, _⟩ := named_var.mp named
    rw [canonical_var]
    exact Text.trim_encode fun c member => (chars c member).1
  | not f =>
    by_cases atom : ∃ name, f = var name
    · obtain ⟨name, rfl⟩ := atom
      obtain ⟨cs, rfl, _, chars, _⟩ := named_var.mp (named_not.mp named)
      rw [canonical_not_var]
      have letters : ∀ c ∈ '~' :: cs, Text.isBlank c = false :=
        List.forall_mem_cons.mpr ⟨rfl, fun c member => (chars c member).1⟩
      exact Text.trim_encode letters
    · rw [canonical_not_of_compound (not_exists.mp atom)]
      exact @Text.trim_of_signs 0x7E 0x29 (0x28 :: f.canonical) (by decide) (by decide) (by decide)
        (by decide)
  | and l r => rw [canonical_and]; exact trim_group _ _ _
  | or l r => rw [canonical_or]; exact trim_group _ _ _
  | implies l r => rw [canonical_implies]; exact trim_group _ _ _

theorem Named.canonical_ne_nil {f : Formula} (named : f.Named) : f.canonical ≠ [] := by
  cases f with
  | var name =>
    rw [canonical_var]
    exact (named_var.mp named).ne_nil
  | not f => cases f <;> simp [canonical, write]
  | and l r | or l r | implies l r => simp [canonical, write]

theorem Named.isSide_canonical {f : Formula} (named : f.Named) : f.canonical.IsSide :=
  ⟨named.trim_canonical, named.canonical_ne_nil, named.signless_canonical⟩

theorem comma_not_mem_canonical {f : Formula} (names : ∀ name ∈ f.leaves, 0x2C ∉ name) :
    0x2C ∉ f.canonical := by
  induction f with
  | var name =>
    rw [canonical_var]
    exact names name (by simp [leaves])
  | not f ih =>
    have operand := ih names
    by_cases atom : ∃ name, f = var name
    · obtain ⟨name, rfl⟩ := atom
      rw [canonical_var] at operand
      rw [canonical_not_var, List.mem_append, not_or]
      exact ⟨by decide, operand⟩
    · rw [canonical_not_of_compound (not_exists.mp atom)]
      simp only [List.mem_append, not_or]
      exact ⟨by decide, operand, by decide⟩
  | and l r ihl ihr | or l r ihl ihr | implies l r ihl ihr =>
    obtain ⟨left, right⟩ := List.forall_mem_append.mp names
    simp only [canonical_and, canonical_or, canonical_implies, List.mem_append, not_or]
    exact ⟨by decide, ihl left, by decide, ihr right, by decide⟩

end Formula

namespace Argument

def ofFormulas (premises : List Formula) (conclusion : Formula) : Argument where
  premises := premises.map Formula.canonical
  conclusion := conclusion.canonical

section

variable {premises : List Formula} {conclusion : Formula}
variable (named : (∀ p ∈ premises, p.Named) ∧ conclusion.Named)
include named

theorem writable_ofFormulas (commas : ∀ p ∈ premises, ∀ name ∈ p.leaves, 0x2C ∉ name) :
    (ofFormulas premises conclusion).Writable where
  unnamed := rfl
  premises := List.forall_mem_map.mpr fun p member =>
    ⟨(named.1 p member).isSide_canonical, Formula.comma_not_mem_canonical (commas p member)⟩
  conclusion := named.2.isSide_canonical

theorem parse_ofFormulas : (ofFormulas premises conclusion).parse = .ok ⟨premises, conclusion⟩ := by
  refine parse_eq_ok_iff.mpr ⟨validate_eq_ok_iff.mpr ⟨?_, ?_⟩, ?_, named.2.parse_canonical⟩
  · refine List.forall_mem_map.mpr fun p member => ?_
    rw [(named.1 p member).trim_canonical]
    exact (named.1 p member).canonical_ne_nil
  · rw [ofFormulas, named.2.trim_canonical]
    exact named.2.canonical_ne_nil
  · rw [ofFormulas, List.forall₂_map_left_iff, List.forall₂_same]
    exact fun p member => (named.1 p member).parse_canonical

end

/-- An argument of canonical texts is read back from its sequent, and its texts are read as the
formulas they are the texts of, if no name in a premise holds a comma. -/
theorem canonical_argument_survives_sequent (premises : List Formula) (conclusion : Formula)
    (named : (∀ p ∈ premises, p.Named) ∧ conclusion.Named)
    (commas : ∀ p ∈ premises, ∀ name ∈ p.leaves, 0x2C ∉ name) :
    ofSequent (ofFormulas premises conclusion).sequent = .ok (ofFormulas premises conclusion) ∧
      (ofFormulas premises conclusion).parse = .ok ⟨premises, conclusion⟩ :=
  ⟨ofSequent_sequent (writable_ofFormulas named commas), parse_ofFormulas named⟩

/-- The text `P|-Q` is the disjunction of `P` and `-Q`. It cannot stand in a sequent as it is,
but its canonical text can. The name in the conclusion holds a comma. -/
theorem canonical_argument_survives_sequent_of_split_sign :
    let premise : Formula := .or (.var "P") (.var "-Q")
    let a := ofFormulas [premise] (.var "a,b")
    Formula.parse "P|-Q" = .ok premise ∧
    ofSequent "P|-Q |- a,b" = .error (.notTwoSides "P|-Q |- a,b") ∧
    a.sequent = Text.ofString "(P | -Q) |- a,b" ∧
    ofSequent a.sequent = .ok a ∧ a.parse = .ok ⟨[premise], .var "a,b"⟩ := by
  intro premise a
  have raw : Formula.parse "P|-Q" = .ok premise := by
    rw [Formula.parse, Token.tokenize, Text.ofString, Text.chars?_encode]
    rfl
  have named : (∀ p ∈ [premise], p.Named) ∧ (Formula.var "a,b").Named := by decide +kernel
  exact ⟨raw, by decide, by decide,
    canonical_argument_survives_sequent [premise] (.var "a,b") named (by decide)⟩

end Argument

end Turnstile
