import Turnstile.Formula.Parser
import Turnstile.Proofs.Splitting

/-! A text that is not the encoding of characters goes wrong at one place: up to there it is an
encoding, and what follows starts with no character. It starts with a byte that cannot come
first, with too few continuation bytes, or with bytes that spell no character or have a shorter
form. Exactly such texts are refused. -/
namespace Turnstile

namespace Text

/-- The number of continuation bytes that a byte asks for when a character starts with it. -/
def following (a : UInt8) : Nat :=
  if a.toNat < 0xC0 then 0
  else if a.toNat < 0xE0 then 1
  else if a.toNat < 0xF0 then 2
  else if a.toNat < 0xF8 then 3
  else 0

inductive Shaped : Text → Nat → Prop where
  | two {a b : UInt8} (lower : 0xC0 ≤ a.toNat) (upper : a.toNat < 0xE0)
      (second : isContinuation b = true) :
      Shaped [a, b] ((a.toNat - 0xC0) * 64 + (b.toNat - 0x80))
  | three {a b c : UInt8} (lower : 0xE0 ≤ a.toNat) (upper : a.toNat < 0xF0)
      (second : isContinuation b = true) (third : isContinuation c = true) :
      Shaped [a, b, c] (((a.toNat - 0xE0) * 64 + (b.toNat - 0x80)) * 64 + (c.toNat - 0x80))
  | four {a b c d : UInt8} (lower : 0xF0 ≤ a.toNat) (upper : a.toNat < 0xF8)
      (second : isContinuation b = true) (third : isContinuation c = true)
      (fourth : isContinuation d = true) :
      Shaped [a, b, c, d]
        ((((a.toNat - 0xF0) * 64 + (b.toNat - 0x80)) * 64 + (c.toNat - 0x80)) * 64 +
          (d.toNat - 0x80))

def least : Nat → Nat
  | 2 => 0x80
  | 3 => 0x800
  | 4 => 0x10000
  | _ => 0

/-- What keeps a text from starting with a character. -/
inductive Defect : Text → Prop where
  | continuation (cont : isContinuation a = true) : Defect (a :: rest)
  | unused (high : 0xF8 ≤ a.toNat) : Defect (a :: rest)
  | truncated (few : (rest.takeWhile isContinuation).length < following a) : Defect (a :: rest)
  | overlong (shaped : Shaped bytes value) (small : value < least bytes.length) :
      Defect (bytes ++ rest)
  | surrogate (shaped : Shaped bytes value) (lower : 0xD800 ≤ value) (upper : value ≤ 0xDFFF) :
      Defect (bytes ++ rest)
  | tooLarge (shaped : Shaped bytes value) (large : 0x10FFFF < value) : Defect (bytes ++ rest)

theorem isValidChar_iff {n : Nat} :
    n.isValidChar ↔ n ≤ 0x10FFFF ∧ ¬(0xD800 ≤ n ∧ n ≤ 0xDFFF) := by
  unfold Nat.isValidChar
  omega

/-- Bytes of the right shape are a character if their value is one and needs as many bytes. -/
theorem firstPiece_shaped (shaped : Shaped (a :: bs) value) (rest : Text) :
    firstPiece a (bs ++ rest) = if least (bs.length + 1) ≤ value ∧ value.isValidChar
      then (.char (Char.ofNat value), rest) else (.stray a, bs ++ rest) := by
  cases shaped with
  | @two _ b lower upper second =>
    obtain ⟨low, high⟩ := toNat_of_isContinuation second
    by_cases short : a.toNat < 0xC2
    · have shorter : (a.toNat - 0xC0) * 64 + (b.toNat - 0x80) < 0x80 := by omega
      rw [if_neg fun fits => absurd fits.1 (Nat.not_le.mpr shorter)]
      simp only [firstPiece]
      rw [if_neg (by omega), if_pos short]
    · have fits : 0x80 ≤ (a.toNat - 0xC0) * 64 + (b.toNat - 0x80) := by omega
      rw [if_pos ⟨fits, .inl (by omega)⟩]
      exact firstPiece_two rest (by omega) upper second
  | three lower upper second third =>
    simp only [firstPiece, List.cons_append, List.nil_append]
    rw [if_neg (by omega), if_neg (by omega), if_neg (by omega), if_pos upper]
    simp [second, third, least]
  | @four _ b c d lower upper second third fourth =>
    simp only [firstPiece, List.cons_append, List.nil_append]
    rw [if_neg (by omega), if_neg (by omega), if_neg (by omega), if_neg (by omega)]
    by_cases small : a.toNat < 0xF5
    · rw [if_pos small]
      simp [second, third, fourth, least]
    · rw [if_neg small, if_neg]
      rintro ⟨_, valid⟩
      have bound := (isValidChar_iff.mp valid).1
      omega

/-- A byte that asks for more continuation bytes than follow it is a stray. -/
theorem firstPiece_truncated (few : (s.takeWhile isContinuation).length < following a) :
    firstPiece a s = (.stray a, s) := by
  unfold firstPiece
  dsimp only
  unfold following at few
  split_ifs with one stray two three four
  · rw [if_pos (by omega)] at few
    contradiction
  · rfl
  · rw [if_neg (by omega), if_pos two] at few
    rcases s with _ | ⟨b, s⟩
    · rfl
    · by_cases second : isContinuation b <;> simp [second] at few ⊢
  · rw [if_neg (by omega), if_neg two, if_pos three] at few
    rcases s with _ | ⟨b, _ | ⟨c, s⟩⟩
    · rfl
    · rfl
    · by_cases second : isContinuation b <;> by_cases third : isContinuation c
      · rw [List.takeWhile_cons_of_pos second, List.takeWhile_cons_of_pos third] at few
        simp only [List.length_cons] at few
        omega
      all_goals simp [second, third]
  · rw [if_neg (by omega), if_neg two, if_neg three, if_pos (by omega)] at few
    rcases s with _ | ⟨b, _ | ⟨c, _ | ⟨d, s⟩⟩⟩
    · rfl
    · rfl
    · rfl
    · by_cases second : isContinuation b <;> by_cases third : isContinuation c <;>
        by_cases fourth : isContinuation d
      · rw [List.takeWhile_cons_of_pos second, List.takeWhile_cons_of_pos third,
          List.takeWhile_cons_of_pos fourth] at few
        simp only [List.length_cons] at few
        omega
      all_goals simp [second, third, fourth]
  · rfl

theorem exists_take_of_le {p : α → Bool} {xs : List α} (enough : n ≤ (xs.takeWhile p).length) :
    ∃ ys zs, xs = ys ++ zs ∧ ys.length = n ∧ ∀ y ∈ ys, p y = true := by
  have inside : (xs.takeWhile p).take n <+: xs :=
    (List.take_prefix n _).trans (List.takeWhile_prefix p)
  obtain ⟨zs, parts⟩ := inside
  refine ⟨_, zs, parts.symm, List.length_take_of_le enough, fun y member => ?_⟩
  exact List.mem_takeWhile_imp (List.mem_of_mem_take member)

/-- A byte that starts a character is followed by too few continuation bytes, or by enough. -/
theorem truncated_or_shaped (lower : 0xC0 ≤ a.toNat) (upper : a.toNat < 0xF8) (s : Text) :
    (s.takeWhile isContinuation).length < following a ∨
      ∃ bs value rest, s = bs ++ rest ∧ Shaped (a :: bs) value := by
  refine (Nat.lt_or_ge _ _).imp_right fun enough => ?_
  obtain ⟨bs, rest, rfl, length, cont⟩ := exists_take_of_le enough
  unfold following at length
  split_ifs at length with small two three
  · omega
  · obtain ⟨b, rfl⟩ := List.length_eq_one_iff.mp length
    exact ⟨_, _, rest, rfl, .two lower two (cont b (by simp))⟩
  · obtain ⟨b, c, rfl⟩ := List.length_eq_two.mp length
    exact ⟨_, _, rest, rfl, .three (by omega) three (cont b (by simp)) (cont c (by simp))⟩
  · obtain ⟨b, c, d, rfl⟩ := List.length_eq_three.mp length
    exact ⟨_, _, rest, rfl,
      .four (by omega) upper (cont b (by simp)) (cont c (by simp)) (cont d (by simp))⟩

/-- A text with a defect starts with a stray. -/
theorem Defect.exists_stray (defect : Defect t) :
    ∃ a s, t = a :: s ∧ firstPiece a s = (.stray a, s) := by
  have shaped {bytes rest : Text} {value : Nat} (shaped : Shaped bytes value)
      (wrong : ¬(least bytes.length ≤ value ∧ value.isValidChar)) :
      ∃ a s, bytes ++ rest = a :: s ∧ firstPiece a s = (.stray a, s) := by
    cases bytes with
    | nil => cases shaped
    | cons a bs => exact ⟨a, bs ++ rest, rfl, (firstPiece_shaped shaped rest).trans (if_neg wrong)⟩
  cases defect with
  | @continuation a rest cont =>
    obtain ⟨lower, upper⟩ := toNat_of_isContinuation cont
    refine ⟨a, rest, rfl, ?_⟩
    simp only [firstPiece]
    rw [if_neg (by omega), if_pos (by omega)]
  | @unused a rest high =>
    refine ⟨a, rest, rfl, ?_⟩
    simp only [firstPiece]
    rw [if_neg (by omega), if_neg (by omega), if_neg (by omega), if_neg (by omega),
      if_neg (by omega)]
  | truncated few => exact ⟨_, _, rfl, firstPiece_truncated few⟩
  | overlong form small => exact shaped form fun fits => absurd fits.1 (Nat.not_le.mpr small)
  | surrogate form lower upper =>
    exact shaped form fun fits => (isValidChar_iff.mp fits.2).2 ⟨lower, upper⟩
  | tooLarge form large =>
    exact shaped form fun fits => absurd (isValidChar_iff.mp fits.2).1 (Nat.not_le.mpr large)

/-- A text starts with a character or has a defect. -/
theorem char_or_defect (a : UInt8) (s : Text) :
    (∃ c rest, firstPiece a s = (.char c, rest)) ∨ Defect (a :: s) := by
  by_cases ascii : a.toNat < 0x80
  · exact .inl ⟨_, _, firstPiece_one s ascii⟩
  by_cases cont : isContinuation a = true
  · exact .inr (.continuation cont)
  by_cases high : 0xF8 ≤ a.toNat
  · exact .inr (.unused high)
  have lower : 0xC0 ≤ a.toNat := by
    simp [isContinuation] at cont
    omega
  rcases truncated_or_shaped lower (Nat.not_le.mp high) s with few | ⟨bs, value, rest, rfl, shaped⟩
  · exact .inr (.truncated few)
  · by_cases short : value < least (bs.length + 1)
    · exact .inr (.overlong shaped short)
    by_cases large : 0x10FFFF < value
    · exact .inr (.tooLarge shaped large)
    by_cases surrogate : 0xD800 ≤ value ∧ value ≤ 0xDFFF
    · exact .inr (.surrogate shaped surrogate.1 surrogate.2)
    · have valid := isValidChar_iff.mpr ⟨Nat.not_lt.mp large, surrogate⟩
      exact .inl ⟨_, _, (firstPiece_shaped shaped rest).trans (if_pos ⟨Nat.not_lt.mp short, valid⟩)⟩

/-- A text is an encoding, or an encoding with a defect after it. -/
theorem encoding_or_defect (s : Text) :
    (∃ cs, s = encode cs) ∨ ∃ cs t, s = encode cs ++ t ∧ Defect t := by
  fun_induction pieces s with
  | case1 => exact .inl ⟨[], rfl⟩
  | case2 a s ih =>
    rcases char_or_defect a s with ⟨c, rest, first⟩ | defect
    · have bytes := bytes_firstPiece a s
      rw [first] at ih bytes
      rcases ih with ⟨cs, rfl⟩ | ⟨cs, t, rfl, defect⟩
      · exact .inl ⟨c :: cs, bytes.symm⟩
      · refine .inr ⟨c :: cs, t, ?_, defect⟩
        rw [encode_cons, List.append_assoc]
        exact bytes.symm
    · exact .inr ⟨[], a :: s, rfl, defect⟩

namespace Defect

variable {t : Text} (defect : Defect t) (cs : List Char)
include defect

/-- The characters before a defect are read, and then a stray. -/
theorem exists_pieces :
    ∃ a s, pieces (encode cs ++ t) = cs.map .char ++ .stray a :: pieces s := by
  obtain ⟨a, s, rfl, stray⟩ := defect.exists_stray
  exact ⟨a, s, by rw [pieces_encode_append, pieces_cons stray]⟩

theorem validLength_eq : validLength (encode cs ++ t) = (encode cs).length := by
  obtain ⟨a, s, pieces⟩ := defect.exists_pieces cs
  have chars : ∀ p ∈ cs.map Piece.char, p.char?.isSome = true := by simp [Piece.char?]
  rw [validLength, pieces, List.takeWhile_append_of_pos chars,
    List.takeWhile_cons_of_neg (by simp [Piece.char?]), List.append_nil, ofPieces_map_char]

/-- No encoding at the start of the text goes beyond the defect. -/
theorem encode_prefix {ds : List Char} (begins : encode ds <+: encode cs ++ t) :
    encode ds <+: encode cs := by
  obtain ⟨u, text⟩ := begins
  obtain ⟨a, s, read⟩ := defect.exists_pieces cs
  rw [← text, pieces_encode_append] at read
  rcases List.append_eq_append_iff.mp read with ⟨more, chars, _⟩ | ⟨more, chars, rest⟩
  · refine ⟨ofPieces more, ?_⟩
    rw [← ofPieces_map_char, ← ofPieces_append, ← chars, ofPieces_map_char]
  · cases more with
    | nil =>
      have same : encode ds = encode cs := by
        rw [← ofPieces_map_char ds, chars, List.append_nil, ofPieces_map_char]
      exact same ▸ List.prefix_rfl
    | cons p more =>
      obtain ⟨rfl, _⟩ := List.cons.inj rest
      have member : Piece.stray a ∈ ds.map Piece.char := by simp [chars]
      simp at member

theorem ne_encode (ds : List Char) : encode cs ++ t ≠ encode ds := by
  intro text
  have within : encode ds <+: encode cs := defect.encode_prefix cs (text ▸ List.prefix_rfl)
  have shorter := (text ▸ within).length_le
  obtain ⟨a, s, rfl, _⟩ := defect.exists_stray
  rw [List.length_append, List.length_cons] at shorter
  omega

end Defect

end Text

namespace Token

open Text (encode)

theorem tokenize_eq_error_iff {s : Text} {e : InvalidText} : tokenize s = .error e ↔
    ∃ cs t, s = encode cs ++ t ∧ Text.Defect t ∧ e = ⟨s, (encode cs).length⟩ := by
  have refused {cs : List Char} {t : Text} (defect : Text.Defect t) :
      tokenize (encode cs ++ t) = .error ⟨encode cs ++ t, (encode cs).length⟩ := by
    have noChars : (encode cs ++ t).chars? = none :=
      Option.eq_none_iff_forall_ne_some.mpr fun ds decoded =>
        defect.ne_encode cs ds (Text.chars?_eq_some_iff.mp decoded)
    rw [tokenize, noChars, defect.validLength_eq]
  constructor
  · intro failed
    rcases Text.encoding_or_defect s with ⟨cs, rfl⟩ | ⟨cs, t, rfl, defect⟩
    · rw [tokenize, Text.chars?_encode] at failed
      contradiction
    · rw [refused defect] at failed
      exact ⟨cs, t, rfl, defect, (Except.error.inj failed).symm⟩
  · rintro ⟨cs, t, rfl, defect, rfl⟩
    exact refused defect

/-- Exactly the texts that are no encodings are refused, by the tokens as by the formulas. The
place that is reported is the length of the longest encoding that the text starts with. What
follows there is a defect, and each defect after an encoding is reported at its place. -/
theorem tokenize_refuses_exactly_invalid_text (s : Text) :
    ((∃ e, tokenize s = .error e) ↔ ¬∃ cs, s = encode cs) ∧
    (∀ e, Formula.parse s = .error (.invalidText e) ↔ tokenize s = .error e) ∧
    (∀ e, tokenize s = .error e ↔
      ∃ cs t, s = encode cs ++ t ∧ Text.Defect t ∧ e = ⟨s, (encode cs).length⟩) ∧
    ∀ e, tokenize s = .error e → e.input = s ∧ e.pos < s.length ∧
      (∃ cs, encode cs <+: s ∧ e.pos = (encode cs).length) ∧
      ∀ cs, encode cs <+: s → (encode cs).length ≤ e.pos := by
  refine ⟨⟨?_, fun other => ?_⟩, fun e => ?_, fun e => tokenize_eq_error_iff, fun e failed => ?_⟩
  · rintro ⟨e, failed⟩ ⟨ds, text⟩
    obtain ⟨cs, t, rfl, defect, _⟩ := tokenize_eq_error_iff.mp failed
    exact defect.ne_encode cs ds text
  · obtain ⟨cs, t, text, defect⟩ := (Text.encoding_or_defect s).resolve_left other
    exact ⟨_, tokenize_eq_error_iff.mpr ⟨cs, t, text, defect, rfl⟩⟩
  · rw [Formula.parse]
    cases tokenize s with
    | error other => simp
    | ok tokens => cases result : Formula.State.run {} tokens <;> simp [result]
  · obtain ⟨cs, t, rfl, defect, rfl⟩ := tokenize_eq_error_iff.mp failed
    refine ⟨rfl, ?_, ⟨cs, List.prefix_append _ _, rfl⟩, fun ds begins => ?_⟩
    · obtain ⟨a, s, rfl, _⟩ := defect.exists_stray
      simp
    · exact (defect.encode_prefix cs begins).length_le

/-- U+FFFD in three bytes is a character, and two of them are a truncated one. -/
example : Text.chars? [0x50, 0xEF, 0xBF, 0xBD] = some ['P', Char.ofNat 0xFFFD] ∧
    (tokenize [0x50, 0xEF, 0xBF]).toOption = none ∧
    Text.validLength [0x50, 0xEF, 0xBF] = 1 := by
  decide +kernel

end Token

end Turnstile
