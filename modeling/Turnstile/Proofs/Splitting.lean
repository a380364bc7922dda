import Mathlib.Data.List.DropRight
import Turnstile.Proofs.Utf8

/-! A text need not be the encoding of characters, so a byte that follows some bytes may change
how they are read. It does not if it starts a character, as blanks and separators do. Trimming
and splitting can therefore be described by the texts around them, whatever their bytes are. -/
namespace Turnstile

namespace Text

theorem firstPiece_append {b : UInt8} (start : isContinuation b = false) (a : UInt8) (s u : Text) :
    firstPiece a (s ++ b :: u) = ((firstPiece a s).1, (firstPiece a s).2 ++ b :: u) := by
  unfold firstPiece
  dsimp only
  split_ifs with one stray two three four
  · rfl
  · rfl
  · rcases s with _ | ⟨x, s⟩
    · simp [start]
    · by_cases cont : isContinuation x <;> simp [cont]
  · rcases s with _ | ⟨x, _ | ⟨y, s⟩⟩
    · cases u <;> simp [start]
    · simp [start]
    · dsimp only [List.cons_append]
      split_ifs <;> rfl
  · rcases s with _ | ⟨x, _ | ⟨y, _ | ⟨z, s⟩⟩⟩
    · rcases u with _ | ⟨y, _ | ⟨z, u⟩⟩ <;> simp [start]
    · cases u <;> simp [start]
    · simp [start]
    · dsimp only [List.cons_append]
      split_ifs <;> rfl
  · rfl

/-- A byte that starts a character separates the pieces before it from those after it. -/
theorem pieces_append {b : UInt8} (start : isContinuation b = false) (s u : Text) :
    pieces (s ++ b :: u) = pieces s ++ pieces (b :: u) := by
  fun_induction pieces s with
  | case1 => rfl
  | case2 a s ih =>
    rw [List.cons_append, pieces, firstPiece_append start, ih, List.cons_append]

theorem ofPieces_append (ps qs : List Piece) : ofPieces (ps ++ qs) = ofPieces ps ++ ofPieces qs :=
  List.flatMap_append

theorem ofPieces_map_char (cs : List Char) : ofPieces (cs.map .char) = encode cs := by
  rw [ofPieces, List.flatMap_map]
  rfl

theorem pieces_encode_append (cs : List Char) (s : Text) :
    pieces (encode cs ++ s) = cs.map .char ++ pieces s := by
  induction cs with
  | nil => rfl
  | cons c cs ih =>
    rw [encode_cons, List.append_assoc, pieces_utf8EncodeChar_append, ih, List.map_cons,
      List.cons_append]

/-- An encoded character does not start with a continuation byte, as that would be a stray. -/
theorem isContinuation_head_utf8EncodeChar {c : Char} {b : UInt8}
    (encoding : String.utf8EncodeChar c = b :: bs) : isContinuation b = false := by
  by_contra cont
  obtain ⟨lower, upper⟩ := toNat_of_isContinuation (by simpa using cont)
  have stray : firstPiece b bs = (.stray b, bs) := by
    unfold firstPiece
    dsimp only
    rw [if_neg (by omega), if_pos (by omega)]
  have decoded := pieces_encode [c]
  rw [encode_cons, encode_nil, List.append_nil, encoding, pieces_cons stray] at decoded
  simp at decoded

theorem pieces_append_encode (s : Text) (cs : List Char) :
    pieces (s ++ encode cs) = pieces s ++ cs.map .char := by
  cases cs with
  | nil => simp
  | cons c cs =>
    cases encoding : String.utf8EncodeChar c with
    | nil => exact absurd encoding String.utf8EncodeChar_ne_nil
    | cons b bs =>
      have start := isContinuation_head_utf8EncodeChar encoding
      rw [← pieces_encode, encode_cons, encoding, List.cons_append, pieces_append start]

/-- A byte that is a character on its own. -/
theorem pieces_append_ascii {b : UInt8} (small : b.toNat < 0x80) (s u : Text) :
    pieces (s ++ b :: u) = pieces s ++ .char (Char.ofNat b.toNat) :: pieces u := by
  have start : isContinuation b = false := by simp [isContinuation]; omega
  rw [pieces_append start, pieces_cons (firstPiece_one u small)]

theorem mem_of_mem_encode {b : UInt8} (small : b.toNat < 0x80) (member : b ∈ encode cs) :
    Char.ofNat b.toNat ∈ cs := by
  obtain ⟨s, u, split⟩ := List.append_of_mem member
  have mapped := pieces_encode cs
  rw [split, pieces_append_ascii small] at mapped
  have charMem : Piece.char (Char.ofNat b.toNat) ∈ cs.map Piece.char := by simp [← mapped]
  simpa using charMem

def Blanks (s : Text) : Prop :=
  ∃ cs, s = encode cs ∧ ∀ c ∈ cs, isBlank c = true

theorem blanks_nil : Blanks [] :=
  ⟨[], rfl, by simp⟩

theorem blanks_space : Blanks [0x20] :=
  ⟨[' '], rfl, List.forall_mem_singleton.mpr rfl⟩

theorem Blanks.not_mem {b : UInt8} (blanks : Blanks s) (small : b.toNat < 0x80)
    (sign : isBlank (Char.ofNat b.toNat) = false) : b ∉ s := by
  obtain ⟨cs, rfl, blank⟩ := blanks
  intro member
  rw [blank _ (mem_of_mem_encode small member)] at sign
  contradiction

theorem blanks_ofPieces {ps : List Piece} (blank : ∀ p ∈ ps, p.isBlank = true) :
    Blanks (ofPieces ps) := by
  induction ps with
  | nil => exact blanks_nil
  | cons p ps ih =>
    obtain ⟨first, blank⟩ := List.forall_mem_cons.mp blank
    obtain ⟨cs, text, rest⟩ := ih blank
    cases p with
    | stray b => contradiction
    | char c =>
      refine ⟨c :: cs, ?_, List.forall_mem_cons.mpr ⟨first, rest⟩⟩
      rw [encode_cons, ← text]
      rfl

theorem trim_eq (s : Text) :
    trim s = ofPieces (((pieces s).dropWhile Piece.isBlank).rdropWhile Piece.isBlank) := rfl

@[simp] theorem trim_nil : trim [] = [] := by
  rw [trim, pieces]
  rfl

theorem trim_blanks_append (blanks : Blanks b) (s : Text) : trim (b ++ s) = trim s := by
  obtain ⟨cs, rfl, blank⟩ := blanks
  have pieceBlank : ∀ p ∈ cs.map Piece.char, p.isBlank = true := by
    simpa [Piece.isBlank] using blank
  rw [trim, pieces_encode_append, List.dropWhile_append_of_pos pieceBlank]
  rfl

theorem dropWhile_append_cons {p : α → Bool} {y : α} (stop : p y = false) (xs ys : List α) :
    (xs ++ y :: ys).dropWhile p = xs.dropWhile p ++ y :: ys := by
  rw [List.dropWhile_append]
  split
  · next empty =>
    rw [List.isEmpty_iff.mp empty, List.nil_append, List.dropWhile_cons_of_neg (by simp [stop])]
  · rfl

theorem rdropWhile_append_cons {p : α → Bool} {y : α} (stop : p y = false) (xs ys : List α) :
    (xs ++ y :: ys).rdropWhile p = xs ++ y :: ys.rdropWhile p := by
  have reversed : (xs ++ y :: ys).reverse = ys.reverse ++ y :: xs.reverse := by simp
  rw [List.rdropWhile, reversed, dropWhile_append_cons stop, List.rdropWhile]
  simp

theorem rdropWhile_append_of_pos {p : α → Bool} {xs ys : List α} (all : ∀ y ∈ ys, p y = true) :
    (xs ++ ys).rdropWhile p = xs.rdropWhile p := by
  rw [List.rdropWhile, List.reverse_append, List.dropWhile_append_of_pos (by simpa using all)]
  rfl

theorem trim_append_blanks (s : Text) (blanks : Blanks b) : trim (s ++ b) = trim s := by
  obtain ⟨cs, rfl, blank⟩ := blanks
  have pieceBlank : ∀ p ∈ cs.map Piece.char, p.isBlank = true := by
    simpa [Piece.isBlank] using blank
  rw [trim_eq, pieces_append_encode, List.dropWhile_append]
  split
  · next empty =>
    rw [List.dropWhile_eq_nil_iff.mpr pieceBlank, trim_eq, List.isEmpty_iff.mp empty]
  · rw [rdropWhile_append_of_pos pieceBlank, trim_eq]

theorem exists_trim (s : Text) :
    ∃ before after, Blanks before ∧ Blanks after ∧ s = before ++ (s.trim ++ after) := by
  refine ⟨ofPieces ((pieces s).takeWhile Piece.isBlank),
    ofPieces (((pieces s).dropWhile Piece.isBlank).rtakeWhile Piece.isBlank),
    blanks_ofPieces fun _ => List.mem_takeWhile_imp,
    blanks_ofPieces fun _ => List.mem_rtakeWhile_imp, ?_⟩
  rw [trim_eq, ← ofPieces_append, ← ofPieces_append, List.rdropWhile_append_rtakeWhile,
    List.takeWhile_append_dropWhile, ofPieces_pieces]

theorem Blanks.append (first : Blanks s) (second : Blanks t) : Blanks (s ++ t) := by
  obtain ⟨cs, rfl, blank⟩ := first
  obtain ⟨ds, rfl, blank'⟩ := second
  exact ⟨cs ++ ds, (encode_append cs ds).symm, List.forall_mem_append.mpr ⟨blank, blank'⟩⟩

/-- Trimming leaves nothing of a text exactly if it is a text of blanks. -/
theorem trim_eq_nil_iff : trim s = [] ↔ Blanks s := by
  constructor
  · intro empty
    obtain ⟨before, after, blanksBefore, blanksAfter, text⟩ := exists_trim s
    rw [text, empty, List.nil_append]
    exact blanksBefore.append blanksAfter
  · intro blanks
    rw [← List.append_nil s, trim_blanks_append blanks, trim_nil]

theorem trim_trim (s : Text) : s.trim.trim = s.trim := by
  obtain ⟨before, after, blanksBefore, blanksAfter, text⟩ := exists_trim s
  conv_rhs => rw [text, trim_blanks_append blanksBefore, trim_append_blanks _ blanksAfter]

theorem trim_infix (s : Text) : s.trim <:+: s := by
  obtain ⟨before, after, _, _, text⟩ := exists_trim s
  exact ⟨before, after, by rw [List.append_assoc, ← text]⟩

/-- A text that starts and ends with signs is trimmed. -/
theorem trim_of_signs {a b : UInt8} {s : Text} (smallFirst : a.toNat < 0x80)
    (first : isBlank (Char.ofNat a.toNat) = false) (smallLast : b.toNat < 0x80)
    (last : isBlank (Char.ofNat b.toNat) = false) : trim (a :: (s ++ [b])) = a :: (s ++ [b]) := by
  obtain ⟨before, after, blanksBefore, blanksAfter, text⟩ := exists_trim (a :: (s ++ [b]))
  cases before with
  | cons c before =>
    obtain ⟨rfl, _⟩ := List.cons.inj text
    exact absurd List.mem_cons_self (blanksBefore.not_mem smallFirst first)
  | nil =>
    rcases List.eq_nil_or_concat after with rfl | ⟨after, c, rfl⟩
    · simpa using text.symm
    · have same : b = c := by
        rw [← List.cons_append, List.nil_append, List.concat_eq_append, ← List.append_assoc] at text
        exact List.singleton_inj.mp (List.append_inj' text rfl).2
      exact absurd (by simp [same]) (blanksAfter.not_mem smallLast last)

theorem trim_encode (letters : ∀ c ∈ cs, isBlank c = false) : trim (encode cs) = encode cs := by
  have letters' : ∀ p ∈ cs.map Piece.char, ¬p.isBlank = true := by
    simpa [Piece.isBlank] using letters
  rw [trim_eq, pieces_encode, List.dropWhile_eq_self_iff.mpr, List.rdropWhile_eq_self_iff.mpr,
    ofPieces_map_char]
  · exact fun nonempty => letters' _ (List.getLast_mem nonempty)
  · exact fun nonempty => letters' _ (List.getElem_mem nonempty)

/-- Trimming does not go beyond a sign. -/
theorem exists_trim_of_sign {b : UInt8} (small : b.toNat < 0x80)
    (sign : isBlank (Char.ofNat b.toNat) = false) (l r : Text) :
    ∃ before l' r' after, Blanks before ∧ Blanks after ∧ l = before ++ l' ∧ r = r' ++ after ∧
      trim (l ++ b :: r) = l' ++ b :: r' := by
  have stop : Piece.isBlank (.char (Char.ofNat b.toNat)) = false := sign
  refine ⟨ofPieces ((pieces l).takeWhile Piece.isBlank),
    ofPieces ((pieces l).dropWhile Piece.isBlank), ofPieces ((pieces r).rdropWhile Piece.isBlank),
    ofPieces ((pieces r).rtakeWhile Piece.isBlank), blanks_ofPieces fun _ => List.mem_takeWhile_imp,
    blanks_ofPieces fun _ => List.mem_rtakeWhile_imp, ?_, ?_, ?_⟩
  · rw [← ofPieces_append, List.takeWhile_append_dropWhile, ofPieces_pieces]
  · rw [← ofPieces_append, List.rdropWhile_append_rtakeWhile, ofPieces_pieces]
  · have bytes : ofPieces [.char (Char.ofNat b.toNat)] = [b] := by
      have decoded := ofPieces_pieces [b]
      rwa [pieces_cons (firstPiece_one [] small), pieces] at decoded
    rw [trim_eq, pieces_append_ascii small, dropWhile_append_cons stop, rdropWhile_append_cons stop,
      ofPieces_append, ← List.singleton_append, ofPieces_append, bytes, List.singleton_append]

theorem consHead_eq_modifyHead {ts : List Text} (b : UInt8) (nonempty : ts ≠ []) :
    consHead b ts = ts.modifyHead (List.cons b) := by
  cases ts with
  | nil => contradiction
  | cons t ts => rfl

theorem splitByte_eq_splitOn (sep : UInt8) (s : Text) : splitByte sep s = s.splitOn sep := by
  induction s with
  | nil => rfl
  | cons b s ih =>
    rw [splitByte, ih, consHead_eq_modifyHead b (List.splitOn_ne_nil sep s),
      List.splitOn_cons_eq_if_modifyHead]
    simp only [beq_iff_eq]

theorem join_eq_intercalate (sep : Text) (ts : List Text) : join sep ts = sep.intercalate ts := by
  induction ts with
  | nil => rfl
  | cons t ts ih =>
    cases ts with
    | nil => simp [join]
    | cons u ts => simp [join, ih, List.intercalate_cons_cons]

/-- Texts without a byte are the parts of what they are joined to with this byte. -/
theorem splitByte_join {sep : UInt8} {ts : List Text} (nonempty : ts ≠ [])
    (absent : ∀ t ∈ ts, sep ∉ t) : splitByte sep (join [sep] ts) = ts := by
  rw [splitByte_eq_splitOn, join_eq_intercalate]
  exact List.splitOn_intercalate sep absent nonempty

/-- Bytes in front that are not the separator belong to the first part. -/
theorem exists_splitOn_append {sep : UInt8} {u : Text} (absent : sep ∉ u) (s : Text) :
    ∃ first rest, s.splitOn sep = first :: rest ∧ (u ++ s).splitOn sep = (u ++ first) :: rest := by
  obtain ⟨first, rest, parts⟩ := List.exists_cons_of_ne_nil (List.splitOn_ne_nil sep s)
  refine ⟨first, rest, parts, ?_⟩
  induction u with
  | nil => exact parts
  | cons b u ih =>
    obtain ⟨other, absent⟩ := not_or.mp (List.mem_cons.not.mp absent)
    rw [List.cons_append, List.splitOn_cons_eq_if_modifyHead, if_neg (by simpa using Ne.symm other),
      ih absent, List.modifyHead_cons]
    rfl

/-- Bytes at the end that are not the separator belong to the last part. -/
theorem exists_splitOn_append_right {sep : UInt8} {u : Text} (absent : sep ∉ u) (s : Text) :
    ∃ init last, s.splitOn sep = init ++ [last] ∧ (s ++ u).splitOn sep = init ++ [last ++ u] := by
  induction s with
  | nil => exact ⟨[], [], rfl, List.splitOn_eq_singleton absent⟩
  | cons b s ih =>
    obtain ⟨init, last, parts, longer⟩ := ih
    simp only [List.cons_append, List.splitOn_cons_eq_if_modifyHead, parts, longer]
    by_cases isSep : b = sep
    · exact ⟨[] :: init, last, by simp [isSep], by simp [isSep]⟩
    · cases init with
      | nil => exact ⟨[], b :: last, by simp [isSep], by simp [isSep]⟩
      | cons first init => exact ⟨(b :: first) :: init, last, by simp [isSep], by simp [isSep]⟩

/-- The parts of a text stand in it and do not hold the separator. -/
theorem infix_of_mem_splitOn {sep : UInt8} (member : p ∈ s.splitOn sep) : p <:+: s ∧ sep ∉ p := by
  induction size : s.length using Nat.strongRecOn generalizing s with
  | ind n ih =>
    by_cases present : sep ∈ s
    · obtain ⟨first, rest, rfl, absent⟩ := List.eq_append_cons_of_mem present
      rw [List.splitOn_append_cons_self_of_not_mem absent] at member
      rcases List.mem_cons.mp member with rfl | later
      · exact ⟨(List.prefix_append p _).isInfix, absent⟩
      · have shorter : rest.length < n := by simp [← size]; omega
        obtain ⟨inside, absent⟩ := ih rest.length shorter later rfl
        refine ⟨inside.trans ?_, absent⟩
        exact ((List.suffix_cons sep rest).trans (List.suffix_append first _)).isInfix
    · rw [List.splitOn_eq_singleton present] at member
      obtain rfl := List.mem_singleton.mp member
      exact ⟨List.infix_rfl, present⟩

section Parts

variable {sep : UInt8} (small : sep.toNat < 0x80) (sign : isBlank (Char.ofNat sep.toNat) = false)
include small sign

theorem map_trim_splitOn_blanks_append (blanks : Blanks b) (s : Text) :
    ((b ++ s).splitOn sep).map trim = (s.splitOn sep).map trim := by
  obtain ⟨first, rest, parts, longer⟩ := exists_splitOn_append (blanks.not_mem small sign) s
  rw [parts, longer, List.map_cons, List.map_cons, trim_blanks_append blanks]

theorem map_trim_splitOn_append_blanks (s : Text) (blanks : Blanks b) :
    ((s ++ b).splitOn sep).map trim = (s.splitOn sep).map trim := by
  obtain ⟨init, last, parts, longer⟩ := exists_splitOn_append_right (blanks.not_mem small sign) s
  rw [parts, longer, List.map_append, List.map_append, List.map_singleton, List.map_singleton,
    trim_append_blanks last blanks]

/-- Blanks around a text do not change its parts once they are trimmed. -/
theorem map_trim_splitOn_trim (s : Text) :
    (s.trim.splitOn sep).map trim = (s.splitOn sep).map trim := by
  obtain ⟨before, after, blanksBefore, blanksAfter, text⟩ := exists_trim s
  conv_rhs => rw [text]
  rw [map_trim_splitOn_blanks_append small sign blanksBefore,
    map_trim_splitOn_append_blanks small sign s.trim blanksAfter]

end Parts

section Pair

variable {a b : UInt8}

theorem splitPair_cons_cons (a b : UInt8) (s : Text) :
    splitPair a b (a :: b :: s) = [] :: splitPair a b s := by
  rw [splitPair, if_pos ⟨rfl, rfl⟩]

theorem splitPair_cons {c : UInt8} (apart : ¬[a, b] <+: c :: s) :
    splitPair a b (c :: s) = consHead c (splitPair a b s) := by
  cases s with
  | nil => rfl
  | cons d s =>
    rw [splitPair, if_neg]
    rintro ⟨rfl, rfl⟩
    exact apart (by simp)

theorem splitPair_of_absent (absent : ¬[a, b] <:+: s) : splitPair a b s = [s] := by
  induction s with
  | nil => rfl
  | cons c s ih =>
    obtain ⟨apart, absent⟩ := not_or.mp (List.infix_cons_iff.not.mp absent)
    rw [splitPair_cons apart, ih absent]
    rfl

/-- A text is cut at the first place where the two bytes stand. -/
theorem splitPair_append (distinct : a ≠ b) (absent : ¬[a, b] <:+: l) (r : Text) :
    splitPair a b (l ++ a :: b :: r) = l :: splitPair a b r := by
  induction l with
  | nil => exact splitPair_cons_cons a b r
  | cons c l ih =>
    obtain ⟨apart, absent⟩ := not_or.mp (List.infix_cons_iff.not.mp absent)
    have apart' : ¬[a, b] <+: c :: (l ++ a :: b :: r) := by
      cases l with
      | nil => simp [distinct.symm]
      | cons d l => simpa using apart
    rw [List.cons_append, splitPair_cons apart', ih absent]
    rfl

theorem exists_first_of_infix (present : [a, b] <:+: s) :
    ∃ l r, s = l ++ a :: b :: r ∧ ¬[a, b] <:+: l := by
  induction s with
  | nil => simp at present
  | cons c s ih =>
    by_cases starts : [a, b] <+: c :: s
    · obtain ⟨r, text⟩ := starts
      exact ⟨[], r, text.symm, by simp⟩
    · obtain ⟨l, r, rfl, absent⟩ := ih ((List.infix_cons_iff.mp present).resolve_left starts)
      refine ⟨c :: l, r, rfl, fun inside => ?_⟩
      rcases List.infix_cons_iff.mp inside with atStart | later
      · exact starts (atStart.trans (List.prefix_append (c :: l) _))
      · exact absent later

theorem splitPair_ne_nil (distinct : a ≠ b) (s : Text) : splitPair a b s ≠ [] := by
  by_cases present : [a, b] <:+: s
  · obtain ⟨l, r, rfl, absent⟩ := exists_first_of_infix present
    simp [splitPair_append distinct absent]
  · simp [splitPair_of_absent present]

/-- A text has two parts exactly if the two bytes stand in it once. -/
theorem splitPair_eq_pair_iff (distinct : a ≠ b) : splitPair a b s = [l, r] ↔
    s = l ++ a :: b :: r ∧ ¬[a, b] <:+: l ∧ ¬[a, b] <:+: r := by
  constructor
  · intro parts
    by_cases present : [a, b] <:+: s
    · obtain ⟨l', r', rfl, absent⟩ := exists_first_of_infix present
      rw [splitPair_append distinct absent] at parts
      obtain ⟨rfl, rest⟩ := List.cons.inj parts
      by_cases again : [a, b] <:+: r'
      · obtain ⟨l₂, r₂, rfl, absent₂⟩ := exists_first_of_infix again
        rw [splitPair_append distinct absent₂] at rest
        exact absurd (List.cons.inj rest).2 (splitPair_ne_nil distinct r₂)
      · rw [splitPair_of_absent again] at rest
        obtain ⟨rfl⟩ := rest
        exact ⟨rfl, absent, again⟩
    · rw [splitPair_of_absent present] at parts
      simp at parts
  · rintro ⟨rfl, left, right⟩
    rw [splitPair_append distinct left, splitPair_of_absent right]

/-- Texts without the two bytes are the parts of what they are joined to with these bytes. -/
theorem splitPair_join (distinct : a ≠ b) {ts : List Text} (nonempty : ts ≠ [])
    (absent : ∀ t ∈ ts, ¬[a, b] <:+: t) : splitPair a b (join [a, b] ts) = ts := by
  induction ts with
  | nil => contradiction
  | cons t ts ih =>
    obtain ⟨first, rest⟩ := List.forall_mem_cons.mp absent
    cases ts with
    | nil => exact splitPair_of_absent first
    | cons u ts =>
      have joined : join [a, b] (t :: u :: ts) = t ++ a :: b :: join [a, b] (u :: ts) := rfl
      rw [joined, splitPair_append distinct first, ih (List.cons_ne_nil u ts) rest]

def StandsOnce (sign s l r : Text) : Prop :=
  ∀ l' r', s = l' ++ (sign ++ r') ↔ l' = l ∧ r' = r

/-- Two bytes that differ do not overlap themselves. -/
theorem eq_nil_or_cons_cons (distinct : a ≠ b) (same : a :: b :: r = u ++ a :: b :: r') :
    (u = [] ∧ r = r') ∨ ∃ v, u = a :: b :: v ∧ r = v ++ a :: b :: r' := by
  rcases u with _ | ⟨c, _ | ⟨d, v⟩⟩
  · exact .inl ⟨rfl, by simpa using same⟩
  · obtain ⟨_, rfl, _⟩ : a = c ∧ b = a ∧ r = b :: r' := by simpa using same
    contradiction
  · obtain ⟨rfl, rfl, rest⟩ : a = c ∧ b = d ∧ r = v ++ a :: b :: r' := by simpa using same
    exact .inr ⟨v, rfl, rest⟩

theorem standsOnce_iff (distinct : a ≠ b) : StandsOnce [a, b] s l r ↔
    s = l ++ a :: b :: r ∧ ¬[a, b] <:+: l ∧ ¬[a, b] <:+: r := by
  constructor
  · intro once
    have text : s = l ++ a :: b :: r := (once l r).mpr ⟨rfl, rfl⟩
    refine ⟨text, ?_, ?_⟩
    · rintro ⟨u, v, rfl⟩
      have shorter := ((once u (v ++ a :: b :: r)).mp (by simp [text])).1
      simpa using congrArg List.length shorter
    · rintro ⟨u, v, rfl⟩
      have longer := ((once (l ++ a :: b :: u) v).mp (by simp [text])).1
      simp at longer
  · rintro ⟨rfl, left, right⟩ l' r'
    constructor
    · intro other
      rcases List.append_eq_append_iff.mp other with ⟨u, rfl, rest⟩ | ⟨u, rfl, rest⟩
      · rcases eq_nil_or_cons_cons distinct rest with ⟨rfl, rfl⟩ | ⟨v, _, rfl⟩
        · exact ⟨List.append_nil l, rfl⟩
        · exact absurd ⟨v, r', by simp⟩ right
      · rcases eq_nil_or_cons_cons distinct rest with ⟨rfl, rfl⟩ | ⟨v, rfl, _⟩
        · exact ⟨(List.append_nil l').symm, rfl⟩
        · exact absurd ⟨l', v, by simp⟩ left
    · rintro ⟨rfl, rfl⟩
      rfl

theorem absent_of_not_mem (missing : a ∉ s) : ¬[a, b] <:+: s :=
  fun inside => missing (inside.subset List.mem_cons_self)

/-- Two texts without the two bytes have none between them either, unless one byte ends the
first text and the other starts the second. -/
theorem absent_append (left : ¬[a, b] <:+: s) (right : ¬[a, b] <:+: t)
    (gap : s.getLast? ≠ some a ∨ t.head? ≠ some b) : ¬[a, b] <:+: s ++ t := by
  rw [List.infix_append_iff]
  rintro (inside | inside | ⟨first, second, split, ends, starts⟩)
  · exact left inside
  · exact right inside
  · rcases first with _ | ⟨c, _ | ⟨d, first⟩⟩
    · obtain rfl : [a, b] = second := split
      exact right starts.isInfix
    · obtain ⟨rfl, rfl⟩ : a = c ∧ [b] = second := by simpa using split
      obtain ⟨u, rfl⟩ := ends
      obtain ⟨v, rfl⟩ := starts
      simp at gap
    · obtain ⟨rfl, rfl, rfl, rfl⟩ : a = c ∧ b = d ∧ first = [] ∧ second = [] := by simpa using split
      exact left ends.isInfix

end Pair

end Text

end Turnstile
