import Turnstile.Proofs.Tokens

/-! Tokens divide a text if they are written in it one after the other, leave out its blanks and
nothing else, and if each name goes on as far as it can. There is exactly one way to divide a
text, and that is how it is read. Tokens with single blanks between them are read back as they
are. -/
namespace Turnstile

namespace Text

theorem prefix_of_encode_prefix {cs ds : List Char} (begins : encode cs <+: encode ds) :
    cs <+: ds := by
  induction cs generalizing ds with
  | nil => exact List.nil_prefix
  | cons c cs ih =>
    obtain ⟨rest, text⟩ := begins
    cases ds with
    | nil => simp [String.utf8EncodeChar_ne_nil] at text
    | cons d ds =>
      rw [encode_cons, encode_cons, List.append_assoc] at text
      have first := congrArg pieces text
      rw [pieces_utf8EncodeChar_append, pieces_utf8EncodeChar_append] at first
      obtain rfl := Piece.char.inj (List.cons.inj first).1
      exact List.cons_prefix_cons.mpr ⟨rfl, ih ⟨rest, List.append_cancel_left text⟩⟩

theorem drop_encode (before after : List Char) :
    (encode (before ++ after)).drop (encode before).length = encode after := by
  rw [encode_append, List.drop_left]

end Text

/-- One of the elements of two lists in a row is in the first or in the second. -/
theorem split_append {xs ys before after : List α} (here : xs ++ ys = before ++ x :: after) :
    (∃ more, xs = before ++ x :: more) ∨
      ∃ between, before = xs ++ between ∧ ys = between ++ x :: after := by
  rcases List.append_eq_append_iff.mp here with ⟨between, rfl, rfl⟩ | ⟨more, rfl, tail⟩
  · exact .inr ⟨between, rfl, rfl⟩
  · cases more with
    | nil => exact .inr ⟨[], by simp, tail.symm⟩
    | cons y more =>
      obtain ⟨rfl, rfl⟩ := List.cons.inj tail
      exact .inl ⟨more, rfl⟩

namespace Token

theorem chars_of_label {kind : Kind} (proper : kind ≠ .name)
    (label : Text.encode ds = kind.label) :
    (kind = .implies ∧ ds = ['-', '>']) ∨ ∃ c, Kind.ofChar? c = some kind ∧ ds = [c] := by
  cases kind with
  | name => contradiction
  | implies => exact .inl ⟨rfl, Text.encode_injective label⟩
  | not => exact .inr ⟨'~', rfl, Text.encode_injective label⟩
  | and => exact .inr ⟨'&', rfl, Text.encode_injective label⟩
  | or => exact .inr ⟨'|', rfl, Text.encode_injective label⟩
  | leftParen => exact .inr ⟨'(', rfl, Text.encode_injective label⟩
  | rightParen => exact .inr ⟨')', rfl, Text.encode_injective label⟩

theorem isBlank_of_label {kind : Kind} (proper : kind ≠ .name)
    (label : Text.encode ds = kind.label) : ∀ c ∈ ds, Text.isBlank c = false := by
  rcases chars_of_label proper label with ⟨_, rfl⟩ | ⟨c, sign, rfl⟩
  · exact List.forall_mem_cons.mpr ⟨rfl, List.forall_mem_singleton.mpr rfl⟩
  · simpa using Kind.isBlank_of_ofChar? sign

theorem scan_label {kind : Kind} (proper : kind ≠ .name) (label : Text.encode ds = kind.label)
    (pos : Nat) (cs : List Char) :
    scan pos [] (ds ++ cs) =
      ⟨kind, kind.label, pos⟩ :: scan (pos + kind.label.length) [] cs := by
  rcases chars_of_label proper label with ⟨rfl, rfl⟩ | ⟨c, sign, rfl⟩
  · exact scan_arrow pos [] cs
  · rw [← label, List.singleton_append, scan_sign pos [] cs sign, closeRun_nil, Text.encode_cons,
      Text.encode_nil, List.append_nil, String.length_utf8EncodeChar]

theorem NameChars.not_ends (name : NameChars ds) (ends : Ends rest) : ¬Ends (ds ++ rest) := by
  obtain ⟨nonempty, chars, arrow⟩ := name
  cases ds with
  | nil => contradiction
  | cons c ds =>
    obtain ⟨blank, sign⟩ := chars c List.mem_cons_self
    rw [List.cons_append]
    generalize tail : ds ++ rest = all
    intro starts
    cases starts with
    | blank isBlank => simp [blank] at isBlank
    | sign isSign => simp [Kind.ofChar?_eq_none_iff.mpr sign] at isSign
    | arrow =>
      cases ds with
      | nil => exact ends.head?_ne_greater (by rw [← List.nil_append rest, tail]; rfl)
      | cons d ds =>
        obtain ⟨rfl, _⟩ := List.cons.inj tail
        exact arrow ⟨[], ds, rfl⟩

/-- A proper token is read from its text before anything, or, if it is a name, before anything
that ends it. -/
theorem Proper.exists_chars {token : Token} (proper : token.Proper) :
    ∃ ds, token.text = Text.encode ds ∧ ∀ pos rest us, (token.kind = .name → Ends rest) →
      LaidOut (pos + token.text.length) rest us →
        LaidOut pos (ds ++ rest) (⟨token.kind, token.text, pos⟩ :: us) := by
  obtain ⟨kind, text, place⟩ := token
  by_cases isName : kind = .name
  · subst isName
    obtain ⟨ds, rfl, chars⟩ : text.IsName := proper
    exact ⟨ds, rfl, fun pos rest us ends later => .name chars (ends rfl) later⟩
  · obtain ⟨ds, label⟩ : ∃ ds, Text.encode ds = kind.label := by cases kind <;> exact ⟨_, rfl⟩
    have isLabel : text = kind.label := by
      cases kind with
      | name => contradiction
      | _ => exact proper
    subst isLabel
    exact ⟨ds, label.symm, fun pos rest us _ later => .sign isName label later⟩

def Covers (token : Token) (i : Nat) : Prop :=
  token.pos ≤ i ∧ i < token.pos + token.text.length

theorem Proper.covers_pos {token : Token} (proper : token.Proper) : token.Covers token.pos := by
  have nonempty := List.length_pos_iff.mpr proper.text_ne_nil
  exact ⟨Nat.le_refl _, by omega⟩

/-- The ways to make tokens of the encoding of some characters. -/
structure Divides (cs : List Char) (ts : List Token) : Prop where
  ordered : ts.Pairwise fun a b => a.pos < b.pos ∧ a.pos + a.text.length ≤ b.pos
  written : ∀ t ∈ ts, t.text <+: (Text.encode cs).drop t.pos
  /-- The bytes that no token covers are those of the blanks. -/
  blanks : ∀ before c after, cs = before ++ c :: after → ∀ i, (Text.encode before).length ≤ i →
    i < (Text.encode (before ++ [c])).length → ((∀ t ∈ ts, ¬t.Covers i) ↔ Text.isBlank c = true)
  proper : ∀ t ∈ ts, t.Proper
  maximal : ∀ t ∈ ts, t.kind = .name →
    ∃ after, (Text.encode cs).drop (t.pos + t.text.length) = Text.encode after ∧ Ends after
  apart : ∀ a ∈ ts, ∀ b ∈ ts, a.kind = .name → b.kind = .name → a.pos + a.text.length ≠ b.pos

namespace LaidOut

theorem scan_eq {pos : Nat} (laidOut : LaidOut pos cs ts) : scan pos [] cs = ts := by
  induction laidOut with
  | nil => rfl
  | blank blank rest ih => rw [scan_blank _ _ _ blank, closeRun_nil, ih]
  | sign proper label rest ih => rw [scan_label proper label, ih]
  | name name ends rest ih => rw [scan_name_at name ends, ih]

theorem le_pos {pos : Nat} {token : Token} (laidOut : LaidOut pos cs ts) (member : token ∈ ts) :
    pos ≤ token.pos := by
  obtain ⟨before, ds, after, _, _, place, _⟩ := laidOut.chars_at member
  omega

theorem ordered_cons {token : Token} (rest : LaidOut (token.pos + token.text.length) cs ts)
    (proper : token.Proper)
    (ordered : ts.Pairwise fun a b => a.pos < b.pos ∧ a.pos + a.text.length ≤ b.pos) :
    (token :: ts).Pairwise fun a b => a.pos < b.pos ∧ a.pos + a.text.length ≤ b.pos := by
  refine List.pairwise_cons.mpr ⟨fun later member => ?_, ordered⟩
  have behind := rest.le_pos member
  have inside := proper.covers_pos.2
  exact ⟨by omega, behind⟩

theorem ordered {pos : Nat} (laidOut : LaidOut pos cs ts) :
    ts.Pairwise fun a b => a.pos < b.pos ∧ a.pos + a.text.length ≤ b.pos := by
  induction laidOut with
  | nil => exact .nil
  | blank blank rest ih => exact ih
  | sign proper label rest ih =>
    exact ordered_cons rest ((LaidOut.sign proper label rest).proper List.mem_cons_self) ih
  | name name ends rest ih =>
    exact ordered_cons rest ((LaidOut.name name ends rest).proper List.mem_cons_self) ih

/-- The bytes of a token without blanks are covered by it, and no others. -/
theorem covered_cons {token : Token} (text : token.text = Text.encode ds)
    (solid : ∀ c ∈ ds, Text.isBlank c = false) (here : ds ++ cs = before ++ c :: after)
    (low : token.pos + (Text.encode before).length ≤ i)
    (high : i < token.pos + (Text.encode (before ++ [c])).length)
    (later : ∀ between, cs = between ++ c :: after →
      token.pos + token.text.length + (Text.encode between).length ≤ i →
      i < token.pos + token.text.length + (Text.encode (between ++ [c])).length →
      ((∀ t ∈ ts, ¬t.Covers i) ↔ Text.isBlank c = true)) :
    (∀ t ∈ token :: ts, ¬t.Covers i) ↔ Text.isBlank c = true := by
  rcases split_append here with ⟨more, rfl⟩ | ⟨between, rfl, tail⟩
  · have width : token.text.length =
        (Text.encode (before ++ [c])).length + (Text.encode more).length := by
      rw [text, ← List.length_append, ← Text.encode_append, List.append_assoc,
        List.singleton_append]
    have covers : token.Covers i := ⟨by omega, by omega⟩
    have notBlank := solid c (List.mem_append_right _ List.mem_cons_self)
    simp [covers, notBlank]
  · rw [List.append_assoc, Text.encode_append, List.length_append, ← text] at high
    rw [Text.encode_append, List.length_append, ← text] at low
    have past : ¬token.Covers i := fun covers => by
      have := covers.2
      omega
    rw [List.forall_mem_cons, later between tail (by omega) (by omega)]
    simp [past]

theorem covered_iff {pos : Nat} (laidOut : LaidOut pos cs ts)
    (here : cs = before ++ c :: after) (low : pos + (Text.encode before).length ≤ i)
    (high : i < pos + (Text.encode (before ++ [c])).length) :
    (∀ t ∈ ts, ¬t.Covers i) ↔ Text.isBlank c = true := by
  induction laidOut generalizing before with
  | nil => simp at here
  | @blank b cs ts pos blank rest ih =>
    cases before with
    | nil =>
      obtain ⟨rfl, rfl⟩ := List.cons.inj here
      have behind : ∀ t ∈ ts, ¬t.Covers i := by
        intro t member covers
        have := rest.le_pos member
        have := covers.1
        rw [List.nil_append, Text.length_encode_cons, Text.encode_nil, List.length_nil] at high
        omega
      simpa [blank] using behind
    | cons d before =>
      obtain ⟨rfl, tail⟩ := List.cons.inj here
      rw [Text.length_encode_cons] at low
      rw [List.cons_append, Text.length_encode_cons] at high
      exact ih tail (by omega) (by omega)
  | sign proper label rest ih =>
    exact covered_cons label.symm (isBlank_of_label proper label) here low high fun _ => ih
  | name name ends rest ih =>
    exact covered_cons rfl (fun c member => (name.2.1 c member).1) here low high fun _ => ih

theorem divides (laidOut : LaidOut 0 cs ts) : Divides cs ts where
  ordered := laidOut.ordered
  written := by
    intro t member
    obtain ⟨before, ds, after, rfl, text, place, _⟩ := laidOut.chars_at member
    rw [place, Nat.zero_add, Text.drop_encode, Text.encode_append, text]
    exact List.prefix_append _ _
  blanks := by
    intro before c after here i low high
    exact laidOut.covered_iff here (by omega) (by omega)
  proper := fun t => laidOut.proper
  maximal := by
    intro t member isName
    obtain ⟨before, ds, after, rfl, text, place, shape⟩ := laidOut.chars_at member
    refine ⟨after, ?_, (shape isName).2⟩
    rw [place, Nat.zero_add, text, ← List.length_append, ← Text.encode_append, ← List.append_assoc,
      Text.drop_encode]
  apart := by
    intro a aMember b bMember aName bName touch
    obtain ⟨before, ds, after, rfl, text, place, shape⟩ := laidOut.chars_at aMember
    obtain ⟨before', ds', after', same, text', place', shape'⟩ := laidOut.chars_at bMember
    have follows : after = ds' ++ after' := by
      apply Text.encode_injective
      rw [← Text.drop_encode (before ++ ds) after, ← Text.drop_encode before' (ds' ++ after'),
        ← same, List.append_assoc, Text.encode_append, List.length_append, ← text]
      congr 1
      omega
    exact (shape' bName).1.not_ends (shape' bName).2 (follows ▸ (shape aName).2)

end LaidOut

structure Reached (cs : List Char) (ts : List Token) (before after : List Char)
    (done rest : List Token) : Prop where
  chars : cs = before ++ after
  tokens : ts = done ++ rest
  past : ∀ t ∈ done, t.pos + t.text.length ≤ (Text.encode before).length
  ahead : ∀ t ∈ rest, (Text.encode before).length ≤ t.pos

namespace Divides

variable (divides : Divides cs ts)

include divides

theorem rest_eq_nil (reached : Reached cs ts before [] done rest) : rest = [] := by
  cases rest with
  | nil => rfl
  | cons t rest =>
    have member : t ∈ ts := reached.tokens ▸ List.mem_append_right _ List.mem_cons_self
    have atEnd : (Text.encode cs).length ≤ t.pos := by
      rw [reached.chars, List.append_nil]
      exact reached.ahead t List.mem_cons_self
    have written := divides.written t member
    rw [List.drop_eq_nil_of_le atEnd, List.prefix_nil] at written
    exact absurd written (divides.proper t member).text_ne_nil

theorem skip_blank (reached : Reached cs ts before (c :: after) done rest)
    (blank : Text.isBlank c = true) : Reached cs ts (before ++ [c]) after done rest := by
  have width : (Text.encode (before ++ [c])).length = (Text.encode before).length + c.utf8Size := by
    rw [Text.encode_append, List.length_append, Text.length_encode_cons, Text.encode_nil,
      List.length_nil, Nat.add_zero]
  refine ⟨by simp [reached.chars], reached.tokens, fun t member => ?_, fun t member => ?_⟩
  · have := reached.past t member
    omega
  · have isToken : t ∈ ts := reached.tokens ▸ List.mem_append_right _ member
    apply Nat.le_of_not_lt
    intro inside
    exact (divides.blanks before c after reached.chars t.pos (reached.ahead t member) inside).mpr
      blank t isToken (divides.proper t isToken).covers_pos

/-- The token that covers the next character is the next one, and it starts there. -/
theorem exists_next (reached : Reached cs ts before (c :: after) done rest)
    (solid : ¬Text.isBlank c = true) :
    ∃ t later, rest = t :: later ∧ t.pos = (Text.encode before).length := by
  have inside : (Text.encode before).length < (Text.encode (before ++ [c])).length := by
    rw [Text.encode_append, List.length_append, Text.length_encode_cons]
    have := c.utf8Size_pos
    omega
  have covered := mt (divides.blanks before c after reached.chars _ (Nat.le_refl _) inside).mp solid
  simp only [Classical.not_forall, Classical.not_not] at covered
  obtain ⟨t, member, covers⟩ := covered
  rw [reached.tokens] at member
  rcases List.mem_append.mp member with early | member
  · have := reached.past t early
    have := covers.2
    omega
  · cases rest with
    | nil => contradiction
    | cons first later =>
      refine ⟨first, later, rfl, Nat.le_antisymm ?_ (reached.ahead first List.mem_cons_self)⟩
      rcases List.mem_cons.mp member with rfl | member
      · exact covers.1
      · have ordered := divides.ordered
        rw [reached.tokens] at ordered
        have behind := (List.rel_of_pairwise_cons (List.pairwise_append.mp ordered).2.1 member).1
        have := covers.1
        omega

/-- The next token is written in the characters that are left. -/
theorem exists_chars (reached : Reached cs ts before after done (t :: rest))
    (start : t.pos = (Text.encode before).length) :
    ∃ ds more, after = ds ++ more ∧ t.text = Text.encode ds ∧
      ∀ us, LaidOut (t.pos + t.text.length) more us → LaidOut t.pos (ds ++ more) (t :: us) := by
  have member : t ∈ ts := reached.tokens ▸ List.mem_append_right _ List.mem_cons_self
  obtain ⟨ds, text, extend⟩ := (divides.proper t member).exists_chars
  have written := divides.written t member
  rw [start, reached.chars, Text.drop_encode, text] at written
  obtain ⟨more, rfl⟩ := Text.prefix_of_encode_prefix written
  refine ⟨ds, more, rfl, text, fun us later => extend _ _ _ (fun isName => ?_) later⟩
  obtain ⟨after, left, ends⟩ := divides.maximal t member isName
  rw [start, text, ← List.length_append, ← Text.encode_append, reached.chars, ← List.append_assoc,
    Text.drop_encode] at left
  rwa [Text.encode_injective left]

theorem skip_token (reached : Reached cs ts before (ds ++ more) done (t :: rest))
    (start : t.pos = (Text.encode before).length) (text : t.text = Text.encode ds) :
    Reached cs ts (before ++ ds) more (done ++ [t]) rest := by
  have width : (Text.encode (before ++ ds)).length = t.pos + t.text.length := by
    rw [Text.encode_append, List.length_append, start, text]
  refine ⟨by simp [reached.chars], by simp [reached.tokens], fun u member => ?_, fun u member => ?_⟩
  · rcases List.mem_append.mp member with early | last
    · have := reached.past u early
      omega
    · obtain rfl := List.mem_singleton.mp last
      omega
  · have ordered := divides.ordered
    rw [reached.tokens] at ordered
    rw [width]
    exact (List.rel_of_pairwise_cons (List.pairwise_append.mp ordered).2.1 member).2

theorem laidOut_from (reached : Reached cs ts before after done rest) :
    LaidOut (Text.encode before).length after rest := by
  induction size : after.length using Nat.strongRecOn generalizing before after done rest with
  | ind n ih =>
    cases after with
    | nil =>
      rw [divides.rest_eq_nil reached]
      exact .nil
    | cons c after =>
      by_cases blank : Text.isBlank c = true
      · have next := ih after.length (by simp [← size]) (divides.skip_blank reached blank) rfl
        refine .blank blank ?_
        simpa [String.length_utf8EncodeChar] using next
      · obtain ⟨t, rest, rfl, start⟩ := divides.exists_next reached blank
        obtain ⟨ds, more, shape, text, extend⟩ := divides.exists_chars reached start
        rw [shape] at reached size ⊢
        have member : t ∈ ts := reached.tokens ▸ List.mem_append_right _ List.mem_cons_self
        have shorter : more.length < n := by
          have nonempty : ds ≠ [] := fun empty =>
            (divides.proper t member).text_ne_nil (by simp [text, empty])
          have := List.length_pos_iff.mpr nonempty
          rw [List.length_append] at size
          omega
        have next := ih more.length shorter (divides.skip_token reached start text) rfl
        rw [Text.encode_append, List.length_append, ← start, ← text] at next
        rw [← start]
        exact extend rest next

theorem laidOut : LaidOut 0 cs ts := by
  have reached : Reached cs ts [] cs [] ts := ⟨rfl, rfl, by simp, by simp⟩
  exact divides.laidOut_from reached

end Divides

theorem divides_iff {us : List Token} : Divides cs us ↔ us = scan 0 [] cs := by
  constructor
  · intro divides
    exact divides.laidOut.scan_eq.symm
  · rintro rfl
    exact (laidOut_scan (.empty cs) (Nat.zero_le _)).divides

theorem tokenize_encode (cs : List Char) : tokenize (Text.encode cs) = .ok (scan 0 [] cs) := by
  rw [tokenize, Text.chars?_encode]

/-- Proper tokens with blanks between them are laid out as they are, but for their places. -/
theorem exists_laidOut_join {ts : List Token} (proper : ∀ t ∈ ts, t.Proper) (pos : Nat) :
    ∃ cs us, Text.join " " (ts.map text) = Text.encode cs ∧ LaidOut pos cs us ∧
      us.map kind = ts.map kind ∧ us.map text = ts.map text := by
  induction ts generalizing pos with
  | nil => exact ⟨[], [], rfl, .nil, rfl, rfl⟩
  | cons t ts ih =>
    obtain ⟨first, proper⟩ := List.forall_mem_cons.mp proper
    obtain ⟨ds, text, extend⟩ := first.exists_chars
    cases ts with
    | nil =>
      refine ⟨ds ++ [], _, ?_, extend pos [] [] (fun _ => .nil) .nil, rfl, rfl⟩
      rw [List.append_nil, ← text]
      rfl
    | cons u ts =>
      obtain ⟨cs, us, joined, rest, kinds, texts⟩ := ih proper (pos + t.text.length + 1)
      have blank : Text.isBlank ' ' = true := rfl
      refine ⟨ds ++ ' ' :: cs, _, ?_, extend pos (' ' :: cs) us (fun _ => .blank blank)
        (.blank blank rest), by simp [kinds], by simp [texts]⟩
      rw [Text.encode_append, Text.encode_cons, ← joined, ← text]
      rfl

/-- A text has exactly one list of tokens that divides it, which is how it is read. The texts of
the tokens, joined by blanks, are read as the same tokens at other places. -/
theorem tokenize_divides_uniquely (cs : List Char) :
    ∃ ts, tokenize (Text.encode cs) = .ok ts ∧ (∀ us, Divides cs us ↔ us = ts) ∧
      ∃ us, tokenize (Text.join " " (ts.map text)) = .ok us ∧
        us.map kind = ts.map kind ∧ us.map text = ts.map text := by
  refine ⟨scan 0 [] cs, tokenize_encode cs, fun us => divides_iff, ?_⟩
  have proper := (divides_iff.mpr (Eq.refl (scan 0 [] cs))).proper
  obtain ⟨ds, us, joined, laidOut, kinds, texts⟩ := exists_laidOut_join proper 0
  refine ⟨us, ?_, kinds, texts⟩
  rw [joined, tokenize_encode, laidOut.scan_eq]

/-- A minus sign belongs to a name, unless an arrow begins with it. -/
example : (tokenize "a-b -->>").toOption = some [⟨.name, "a-b", 0⟩, ⟨.name, "-", 4⟩,
    ⟨.implies, "->", 5⟩, ⟨.name, ">", 7⟩] := by
  decide +kernel

end Token

end Turnstile
