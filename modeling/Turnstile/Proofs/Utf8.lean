import Mathlib.Tactic.SplitIfs
import Turnstile.Text.Utf8

/-! The pieces of an encoding are the characters that were encoded, for each of the four lengths
that the encoding of a character can have. The bytes of the pieces of a text are the text, so a
text has characters exactly when it is an encoding. -/
namespace Turnstile

namespace Text

theorem isContinuation_ofNat (n : Nat) : isContinuation (UInt8.ofNat (n % 64 + 0x80)) = true := by
  rw [isContinuation, UInt8.toNat_ofNat_of_lt' (by unfold UInt8.size; omega)]
  simp only [Bool.and_eq_true, decide_eq_true_eq]
  omega

theorem firstPiece_one {a : UInt8} (s : Text) (small : a.toNat < 0x80) :
    firstPiece a s = (.char (Char.ofNat a.toNat), s) := by
  simp [firstPiece, small]

theorem firstPiece_two {a b : UInt8} (s : Text) (lower : 0xC2 ≤ a.toNat) (upper : a.toNat < 0xE0)
    (second : isContinuation b = true) :
    firstPiece a (b :: s) =
      (.char (Char.ofNat ((a.toNat - 0xC0) * 64 + (b.toNat - 0x80))), s) := by
  simp only [firstPiece]
  rw [if_neg (by omega), if_neg (by omega), if_pos upper, if_pos second]

theorem firstPiece_three {a b c : UInt8} (s : Text) (value : Nat) (lower : 0xE0 ≤ a.toNat)
    (upper : a.toNat < 0xF0) (second : isContinuation b = true) (third : isContinuation c = true)
    (sum : ((a.toNat - 0xE0) * 64 + (b.toNat - 0x80)) * 64 + (c.toNat - 0x80) = value)
    (shortest : 0x800 ≤ value) (valid : value.isValidChar) :
    firstPiece a (b :: c :: s) = (.char (Char.ofNat value), s) := by
  simp only [firstPiece, sum]
  rw [if_neg (by omega), if_neg (by omega), if_neg (by omega), if_pos upper,
    if_pos (by simp [second, third, shortest, valid])]

theorem firstPiece_four {a b c d : UInt8} (s : Text) (value : Nat) (lower : 0xF0 ≤ a.toNat)
    (upper : a.toNat < 0xF5) (second : isContinuation b = true) (third : isContinuation c = true)
    (fourth : isContinuation d = true)
    (sum : (((a.toNat - 0xF0) * 64 + (b.toNat - 0x80)) * 64 + (c.toNat - 0x80)) * 64 +
      (d.toNat - 0x80) = value)
    (shortest : 0x10000 ≤ value) (valid : value.isValidChar) :
    firstPiece a (b :: c :: d :: s) = (.char (Char.ofNat value), s) := by
  simp only [firstPiece, sum]
  rw [if_neg (by omega), if_neg (by omega), if_neg (by omega), if_neg (by omega), if_pos upper,
    if_pos (by simp [second, third, fourth, shortest, valid])]

theorem pieces_cons {a : UInt8} {s rest : Text} {p : Piece} (first : firstPiece a s = (p, rest)) :
    pieces (a :: s) = p :: pieces rest := by
  rw [pieces, first]

/-- A character is read back from its encoding, whatever follows it. -/
theorem pieces_utf8EncodeChar_append (c : Char) (rest : Text) :
    pieces (String.utf8EncodeChar c ++ rest) = .char c :: pieces rest := by
  have valid : c.toNat.isValidChar := c.valid
  have bound : c.toNat < 0x110000 := by
    rcases valid with h | h <;> omega
  have back : Char.ofNat c.toNat = c := Char.ofNat_toNat c
  have cont (n : Nat) : (UInt8.ofNat (n % 64 + 0x80)).toNat = n % 64 + 0x80 :=
    UInt8.toNat_ofNat_of_lt' (by unfold UInt8.size; omega)
  unfold String.utf8EncodeChar
  simp only [show c.val.toNat = c.toNat from rfl]
  split_ifs with one two three
  · have lead : (UInt8.ofNat c.toNat).toNat = c.toNat := UInt8.toNat_ofNat_of_lt' (by unfold UInt8.size; omega)
    refine pieces_cons ((firstPiece_one _ (by omega)).trans ?_)
    rw [lead, back]
    rfl
  · have lead : (UInt8.ofNat (c.toNat / 64 % 0x20 + 0xC0)).toNat = c.toNat / 64 % 0x20 + 0xC0 :=
      UInt8.toNat_ofNat_of_lt' (by unfold UInt8.size; omega)
    have value : (c.toNat / 64 % 0x20 + 0xC0 - 0xC0) * 64 + (c.toNat % 64 + 0x80 - 0x80) =
      c.toNat := by omega
    refine pieces_cons ((firstPiece_two _ (by omega) (by omega) (isContinuation_ofNat _)).trans ?_)
    rw [lead, cont, value, back]
    rfl
  · have lead : (UInt8.ofNat (c.toNat / 4096 % 0x10 + 0xE0)).toNat =
      c.toNat / 4096 % 0x10 + 0xE0 := UInt8.toNat_ofNat_of_lt' (by unfold UInt8.size; omega)
    refine pieces_cons ((firstPiece_three _ c.toNat (by omega) (by omega)
      (isContinuation_ofNat _) (isContinuation_ofNat _) ?_ (by omega) valid).trans ?_)
    · rw [lead, cont, cont]
      omega
    · rw [back]
      rfl
  · have lead : (UInt8.ofNat (c.toNat / 262144 % 0x08 + 0xF0)).toNat =
      c.toNat / 262144 % 0x08 + 0xF0 := UInt8.toNat_ofNat_of_lt' (by unfold UInt8.size; omega)
    refine pieces_cons ((firstPiece_four _ c.toNat (by omega) (by omega)
      (isContinuation_ofNat _) (isContinuation_ofNat _) (isContinuation_ofNat _) ?_ (by omega)
      valid).trans ?_)
    · rw [lead, cont, cont, cont]
      omega
    · rw [back]
      rfl

theorem pieces_encode (cs : List Char) : pieces (encode cs) = cs.map .char := by
  induction cs with
  | nil => rw [encode_nil, pieces]; rfl
  | cons c cs ih => rw [encode_cons, pieces_utf8EncodeChar_append, ih, List.map_cons]

/-- The characters of an encoding are those that were encoded. -/
@[simp] theorem chars?_encode (cs : List Char) : (encode cs).chars? = some cs := by
  rw [chars?, pieces_encode]
  induction cs with
  | nil => rfl
  | cons c cs ih => simp [Piece.char?, ih]

theorem ofNat_eq_of_toNat {b : UInt8} {n : Nat} (value : n = b.toNat) : UInt8.ofNat n = b := by
  subst value
  exact UInt8.ofNat_toNat

theorem toNat_of_isContinuation {b : UInt8} (cont : isContinuation b = true) :
    0x80 ≤ b.toNat ∧ b.toNat < 0xC0 := by
  simpa [isContinuation] using cont

theorem toNat_ofNat_of_valid {n : Nat} (valid : n.isValidChar) : (Char.ofNat n).val.toNat = n := by
  rw [Char.ofNat, dif_pos valid]
  rfl

/-- The bytes of a piece are those it was read from. -/
theorem bytes_firstPiece (a : UInt8) (s : Text) :
    (firstPiece a s).1.bytes ++ (firstPiece a s).2 = a :: s := by
  unfold firstPiece
  dsimp only
  split_ifs with one stray two three four
  · have valid : a.toNat.isValidChar := .inl (by omega)
    simp only [Piece.bytes, String.utf8EncodeChar, toNat_ofNat_of_valid valid]
    rw [if_pos (by omega), UInt8.ofNat_toNat]
    rfl
  · rfl
  · split
    next b t =>
      split_ifs with cont
      · obtain ⟨low, high⟩ := toNat_of_isContinuation cont
        have valid : ((a.toNat - 0xC0) * 64 + (b.toNat - 0x80)).isValidChar := .inl (by omega)
        simp only [Piece.bytes, String.utf8EncodeChar, toNat_ofNat_of_valid valid]
        rw [if_neg (by omega), if_pos (by omega), ofNat_eq_of_toNat (b := a) (by omega),
          ofNat_eq_of_toNat (b := b) (by omega)]
        rfl
      · rfl
    next => rfl
  · split
    next b c t =>
      split_ifs with cond
      · simp only [Bool.and_eq_true, decide_eq_true_eq] at cond
        obtain ⟨⟨⟨second, third⟩, shortest⟩, valid⟩ := cond
        obtain ⟨low, high⟩ := toNat_of_isContinuation second
        obtain ⟨low', high'⟩ := toNat_of_isContinuation third
        simp only [Piece.bytes, String.utf8EncodeChar, toNat_ofNat_of_valid valid]
        rw [if_neg (by omega), if_neg (by omega), if_pos (by omega),
          ofNat_eq_of_toNat (b := a) (by omega), ofNat_eq_of_toNat (b := b) (by omega),
          ofNat_eq_of_toNat (b := c) (by omega)]
        rfl
      · rfl
    next => rfl
  · split
    next b c d t =>
      split_ifs with cond
      · simp only [Bool.and_eq_true, decide_eq_true_eq] at cond
        obtain ⟨⟨⟨⟨second, third⟩, fourth⟩, shortest⟩, valid⟩ := cond
        obtain ⟨low, high⟩ := toNat_of_isContinuation second
        obtain ⟨low', high'⟩ := toNat_of_isContinuation third
        obtain ⟨low'', high''⟩ := toNat_of_isContinuation fourth
        simp only [Piece.bytes, String.utf8EncodeChar, toNat_ofNat_of_valid valid]
        rw [if_neg (by omega), if_neg (by omega), if_neg (by omega),
          ofNat_eq_of_toNat (b := a) (by omega), ofNat_eq_of_toNat (b := b) (by omega),
          ofNat_eq_of_toNat (b := c) (by omega), ofNat_eq_of_toNat (b := d) (by omega)]
        rfl
      · rfl
    next => rfl
  · rfl

theorem ofPieces_pieces (s : Text) : ofPieces (pieces s) = s := by
  fun_induction pieces s with
  | case1 => rfl
  | case2 a s ih =>
    rw [ofPieces, List.flatMap_cons, ← ofPieces, ih, bytes_firstPiece]

theorem mapM_char?_eq_some {ps : List Piece} {cs : List Char}
    (all : ps.mapM Piece.char? = some cs) : ps = cs.map .char := by
  induction ps generalizing cs with
  | nil => simp_all
  | cons p ps ih =>
    simp only [List.mapM_cons, Option.bind_eq_bind, Option.bind_eq_some_iff, Option.pure_def,
      Option.some.injEq] at all
    obtain ⟨c, first, ds, rest, rfl⟩ := all
    cases p with
    | char d =>
      obtain rfl := Option.some.inj first
      rw [ih rest, List.map_cons]
    | stray b => simp [Piece.char?] at first

/-- A text has characters exactly when it is their encoding. -/
theorem chars?_eq_some_iff {s : Text} {cs : List Char} : s.chars? = some cs ↔ s = encode cs := by
  constructor
  · intro decoded
    rw [← ofPieces_pieces s, mapM_char?_eq_some decoded, ofPieces, List.flatMap_map]
    rfl
  · rintro rfl
    exact chars?_encode cs

theorem encode_injective {cs ds : List Char} (same : encode cs = encode ds) : cs = ds := by
  have h := congrArg chars? same
  simpa only [chars?_encode, Option.some.injEq] using h

end Text

end Turnstile
