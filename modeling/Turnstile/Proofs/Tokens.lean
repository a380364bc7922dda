import Turnstile.Proofs.Splitting
import Turnstile.Token

/-! A name can be written in a formula if it is not empty, encodes characters, and holds no
blank, no parenthesis, no sign and no `->`. The tokens of a text are laid out in it one after
the other: blanks stand between them only, each is written at its position, and a name ends
where no name can go on. -/
namespace Turnstile

/-- The characters that can make up a name: at least one, none of them a blank, a
parenthesis or a sign, without `->` among them. -/
def Token.NameChars (cs : List Char) : Prop :=
  cs ≠ [] ∧ (∀ c ∈ cs, Text.isBlank c = false ∧ c ∉ ['(', ')', '~', '&', '|']) ∧
    ¬['-', '>'] <:+: cs

instance (cs : List Char) : Decidable (Token.NameChars cs) :=
  letI : Decidable (∀ c ∈ cs, Text.isBlank c = false ∧ c ∉ ['(', ')', '~', '&', '|']) :=
    List.decidableBAll _ cs
  letI : Decidable (['-', '>'] <:+: cs) := List.instDecidableIsInfixOfDecidableEq _ cs
  inferInstanceAs (Decidable (_ ∧ _ ∧ _))

def Text.IsName (name : Text) : Prop :=
  ∃ cs, name = encode cs ∧ Token.NameChars cs

theorem Text.isName_encode {cs : List Char} : (encode cs).IsName ↔ Token.NameChars cs := by
  constructor
  · rintro ⟨ds, same, chars⟩
    rwa [encode_injective same]
  · exact fun chars => ⟨cs, rfl, chars⟩

theorem Text.IsName.ne_nil {name : Text} (isName : name.IsName) : name ≠ [] := by
  obtain ⟨cs, rfl, nonempty, _⟩ := isName
  cases cs with
  | nil => contradiction
  | cons c cs => simp [String.utf8EncodeChar_ne_nil]

/-- The bytes that are blanks, parentheses or signs do not stand in names. -/
theorem Text.IsName.not_mem {name : Text} (isName : name.IsName) {b : UInt8}
    (small : b.toNat < 0x80) (other : isBlank (Char.ofNat b.toNat) = true ∨
      Char.ofNat b.toNat ∈ ['(', ')', '~', '&', '|']) : b ∉ name := by
  obtain ⟨cs, rfl, _, chars, _⟩ := isName
  intro member
  obtain ⟨blank, sign⟩ := chars _ (mem_of_mem_encode small member)
  rcases other with isBlank | isSign
  · simp [blank] at isBlank
  · exact sign isSign

instance (name : Text) : Decidable name.IsName :=
  match decoded : name.chars? with
  | some cs => decidable_of_iff (Token.NameChars cs)
      (Text.chars?_eq_some_iff.mp decoded ▸ Text.isName_encode.symm)
  | none => isFalse fun ⟨cs, text, _⟩ => by simp [text] at decoded

theorem Text.length_encode_cons (c : Char) (cs : List Char) :
    (encode (c :: cs)).length = c.utf8Size + (encode cs).length := by
  rw [encode_cons, List.length_append, String.length_utf8EncodeChar]

namespace Token

theorem Kind.ofChar?_eq_none_iff {c : Char} :
    Kind.ofChar? c = none ↔ c ∉ ['(', ')', '~', '&', '|'] := by
  unfold Kind.ofChar?
  split <;> simp_all

@[simp] theorem closeRun_nil (pos : Nat) (rest : List Token) : closeRun pos [] rest = rest := rfl

theorem closeRun_of_ne_nil {run : List Char} (nonempty : run ≠ []) (pos : Nat)
    (rest : List Token) :
    closeRun pos run rest = ⟨.name, Text.encode run.reverse,
      pos - (Text.encode run.reverse).length⟩ :: rest := by
  cases run with
  | nil => contradiction
  | cons c run => rfl

/-- A blank ends a name. -/
theorem scan_blank (pos : Nat) (run : List Char) {c : Char} (cs : List Char)
    (blank : Text.isBlank c = true) :
    scan pos run (c :: cs) = closeRun pos run (scan (pos + c.utf8Size) [] cs) := by
  rw [scan.eq_def]
  split
  · contradiction
  · next heq =>
    obtain ⟨rfl, rfl⟩ := List.cons.inj heq
    contradiction
  · next heq =>
    obtain ⟨rfl, rfl⟩ := List.cons.inj heq
    rw [if_pos blank]

theorem Kind.isBlank_of_ofChar? {c : Char} {kind : Kind} (sign : Kind.ofChar? c = some kind) :
    Text.isBlank c = false := by
  unfold Kind.ofChar? at sign
  split at sign
  · rfl
  · rfl
  · rfl
  · rfl
  · rfl
  · contradiction

/-- A character that is a sign ends a name and is a token. -/
theorem scan_sign (pos : Nat) (run : List Char) {c : Char} (cs : List Char) {kind : Kind}
    (sign : Kind.ofChar? c = some kind) :
    scan pos run (c :: cs) = closeRun pos run
      (⟨kind, String.utf8EncodeChar c, pos⟩ :: scan (pos + c.utf8Size) [] cs) := by
  rw [scan.eq_def]
  split
  · contradiction
  · next heq =>
    obtain ⟨rfl, rfl⟩ := List.cons.inj heq
    contradiction
  · next heq =>
    obtain ⟨rfl, rfl⟩ := List.cons.inj heq
    rw [if_neg (by simp [Kind.isBlank_of_ofChar? sign]), sign]

theorem exists_scan_sign {c : Char} {kind : Kind} (sign : Kind.ofChar? c = some kind) (pos : Nat)
    (cs : List Char) :
    ∃ token pos', scan pos [] (c :: cs) = token :: scan pos' [] cs ∧ token.kind = kind :=
  ⟨_, _, scan_sign pos [] cs sign, rfl⟩

theorem scan_arrow (pos : Nat) (run cs : List Char) :
    scan pos run ('-' :: '>' :: cs) =
      closeRun pos run (⟨.implies, "->", pos⟩ :: scan (pos + 2) [] cs) :=
  rfl

theorem exists_scan_arrow (pos : Nat) (cs : List Char) :
    ∃ token pos', scan pos [] ('-' :: '>' :: cs) = token :: scan pos' [] cs ∧
      token.kind = .implies :=
  ⟨_, _, rfl, rfl⟩

/-- A character that belongs to a name is kept for it. -/
theorem scan_name_char (pos : Nat) (run : List Char) {c : Char} {cs : List Char}
    (blank : Text.isBlank c = false) (sign : Kind.ofChar? c = none)
    (arrow : ¬['-', '>'] <+: c :: cs) :
    scan pos run (c :: cs) = scan (pos + c.utf8Size) (c :: run) cs := by
  rw [scan.eq_def]
  split
  · contradiction
  · next heq =>
    obtain ⟨rfl, rfl⟩ := List.cons.inj heq
    simp at arrow
  · next heq =>
    obtain ⟨rfl, rfl⟩ := List.cons.inj heq
    rw [if_neg (by simp [blank]), sign]

/-- What ends a name: the end of the text, a blank, a sign or an arrow. -/
inductive Ends : List Char → Prop where
  | nil : Ends []
  | blank (blank : Text.isBlank c = true) : Ends (c :: rest)
  | sign {kind : Kind} (sign : Kind.ofChar? c = some kind) : Ends (c :: rest)
  | arrow : Ends ('-' :: '>' :: rest)

/-- An unfinished name is a token before anything that ends it. -/
theorem Ends.scan (ends : Ends rest) (pos : Nat) (run : List Char) :
    Token.scan pos run rest = closeRun pos run (Token.scan pos [] rest) := by
  cases ends with
  | nil => rfl
  | blank blank => rw [scan_blank pos run _ blank, scan_blank pos [] _ blank, closeRun_nil]
  | sign sign => rw [scan_sign pos run _ sign, scan_sign pos [] _ sign, closeRun_nil]
  | arrow => rw [scan_arrow, scan_arrow, closeRun_nil]

theorem Ends.head?_ne_greater (ends : Ends rest) : rest.head? ≠ some '>' := by
  rintro greater
  obtain ⟨tail, rfl⟩ := List.head?_eq_some_iff.mp greater
  cases ends with
  | blank blank => contradiction
  | sign sign => contradiction

theorem scan_name_chars (ends : Ends rest)
    (chars : ∀ c ∈ cs, Text.isBlank c = false ∧ c ∉ ['(', ')', '~', '&', '|'])
    (arrow : ¬['-', '>'] <:+: cs) (pos : Nat) (run : List Char) :
    scan pos run (cs ++ rest) =
      scan (pos + (Text.encode cs).length) (cs.reverse ++ run) rest := by
  induction cs generalizing pos run with
  | nil => rfl
  | cons c cs ih =>
    obtain ⟨⟨blank, sign⟩, chars⟩ := List.forall_mem_cons.mp chars
    rw [List.infix_cons_iff, not_or] at arrow
    have tail := ih chars arrow.2 (pos + c.utf8Size) (c :: run)
    have apart : ¬['-', '>'] <+: c :: (cs ++ rest) := by
      cases cs with
      | nil =>
        intro starts
        obtain ⟨_, tail, rfl⟩ := List.cons_prefix_cons.mp starts
        exact ends.head?_ne_greater rfl
      | cons d cs => simpa using arrow.1
    rw [List.cons_append, scan_name_char pos run blank (Kind.ofChar?_eq_none_iff.mpr sign) apart,
      tail, Text.length_encode_cons, Nat.add_assoc]
    simp

/-- Before something that ends it, a name is one token. -/
theorem scan_name_at (name : NameChars cs) (ends : Ends rest) (pos : Nat) :
    scan pos [] (cs ++ rest) = ⟨.name, Text.encode cs, pos⟩ ::
      scan (pos + (Text.encode cs).length) [] rest := by
  obtain ⟨nonempty, chars, arrow⟩ := name
  have notNil : cs.reverse ≠ [] := by simpa using nonempty
  rw [scan_name_chars ends chars arrow pos [], List.append_nil, ends.scan,
    closeRun_of_ne_nil notNil, List.reverse_reverse, Nat.add_sub_cancel]

theorem scan_name (name : NameChars cs) (ends : Ends rest) (pos : Nat) :
    ∃ token pos', scan pos [] (cs ++ rest) = token :: scan pos' [] rest ∧
      token.kind = .name ∧ token.text = Text.encode cs :=
  ⟨_, _, scan_name_at name ends pos, rfl, rfl⟩

/-- What holds of the characters `run` of an unfinished name, kept backwards, before
`rest`. -/
structure Unfinished (run rest : List Char) : Prop where
  chars : ∀ c ∈ run, Text.isBlank c = false ∧ c ∉ ['(', ')', '~', '&', '|']
  noArrow : ¬['>', '-'] <:+: run
  /-- An arrow is taken as soon as it is met. -/
  next : run.head? = some '-' → rest.head? ≠ some '>'

theorem Unfinished.empty (rest : List Char) : Unfinished [] rest :=
  ⟨by simp, by simp, by simp⟩

theorem Unfinished.nameChars (unfinished : Unfinished run rest) (nonempty : run ≠ []) :
    NameChars run.reverse := by
  refine ⟨by simpa using nonempty, by simpa using unfinished.chars, fun arrow => ?_⟩
  exact unfinished.noArrow (by simpa using List.reverse_infix.mpr arrow)

theorem Unfinished.cons {c : Char} (unfinished : Unfinished run (c :: cs))
    (blank : Text.isBlank c = false) (sign : Kind.ofChar? c = none)
    (arrow : ∀ rest, c = '-' → cs = '>' :: rest → False) : Unfinished (c :: run) cs where
  chars := List.forall_mem_cons.mpr
    ⟨⟨blank, Kind.ofChar?_eq_none_iff.mp sign⟩, unfinished.chars⟩
  noArrow := by
    rw [List.infix_cons_iff, not_or]
    refine ⟨fun starts => ?_, unfinished.noArrow⟩
    obtain ⟨rfl, tail, rfl⟩ := List.cons_prefix_cons.mp starts
    exact unfinished.next rfl rfl
  next := by
    intro minus greater
    obtain ⟨rest, rfl⟩ := List.head?_eq_some_iff.mp greater
    exact arrow rest (Option.some.inj minus) rfl

inductive LaidOut : Nat → List Char → List Token → Prop where
  | nil {pos : Nat} : LaidOut pos [] []
  | blank {pos : Nat} (blank : Text.isBlank c = true) (rest : LaidOut (pos + c.utf8Size) cs ts) :
      LaidOut pos (c :: cs) ts
  | sign {pos : Nat} {kind : Kind} (proper : kind ≠ .name) (label : Text.encode ds = kind.label)
      (rest : LaidOut (pos + kind.label.length) cs ts) :
      LaidOut pos (ds ++ cs) (⟨kind, kind.label, pos⟩ :: ts)
  | name {pos : Nat} (name : NameChars ds) (ends : Ends cs)
      (rest : LaidOut (pos + (Text.encode ds).length) cs ts) :
      LaidOut pos (ds ++ cs) (⟨.name, Text.encode ds, pos⟩ :: ts)

theorem LaidOut.closeRun {pos : Nat} (unfinished : Unfinished run cs) (ends : Ends cs)
    (fits : (Text.encode run.reverse).length ≤ pos) (rest : LaidOut pos cs ts) :
    LaidOut (pos - (Text.encode run.reverse).length) (run.reverse ++ cs)
      (Token.closeRun pos run ts) := by
  cases run with
  | nil => simpa using rest
  | cons c run =>
    apply LaidOut.name (unfinished.nameChars (by simp)) ends
    rwa [Nat.sub_add_cancel fits]

theorem Kind.ofChar?_ne_name {c : Char} : Kind.ofChar? c ≠ some .name := by
  unfold Kind.ofChar?
  split <;> simp

theorem Kind.encode_of_ofChar? {c : Char} {kind : Kind} (sign : Kind.ofChar? c = some kind) :
    Text.encode [c] = kind.label := by
  unfold Kind.ofChar? at sign
  split at sign
  · obtain rfl := Option.some.inj sign
    rfl
  · obtain rfl := Option.some.inj sign
    rfl
  · obtain rfl := Option.some.inj sign
    rfl
  · obtain rfl := Option.some.inj sign
    rfl
  · obtain rfl := Option.some.inj sign
    rfl
  · contradiction

/-- The characters of an unfinished name come before those that are still to be read. -/
theorem laidOut_scan {pos : Nat} (unfinished : Unfinished run cs)
    (fits : (Text.encode run.reverse).length ≤ pos) :
    LaidOut (pos - (Text.encode run.reverse).length) (run.reverse ++ cs) (scan pos run cs) := by
  fun_induction scan pos run cs with
  | case1 pos run => exact .closeRun unfinished .nil fits .nil
  | case2 pos run cs ih =>
    refine .closeRun unfinished .arrow fits ?_
    have rest : LaidOut (pos + (Kind.label .implies).length) cs (scan (pos + 2) [] cs) :=
      ih (.empty cs) (Nat.zero_le _)
    have label : Text.encode ['-', '>'] = Kind.label .implies := rfl
    exact .sign (by decide) label rest
  | case3 pos run c cs arrow blank ih =>
    exact .closeRun unfinished (.blank blank) fits (.blank blank (ih (.empty cs) (Nat.zero_le _)))
  | case4 pos run c cs arrow blank kind sign ih =>
    refine .closeRun unfinished (.sign sign) fits ?_
    have label := Kind.encode_of_ofChar? sign
    have width : kind.label.length = c.utf8Size := by
      rw [← label, Text.encode_cons, Text.encode_nil, List.append_nil, String.length_utf8EncodeChar]
    have text : String.utf8EncodeChar c = kind.label := by simpa using label
    have rest := ih (.empty cs) (Nat.zero_le _)
    rw [text]
    rw [← width] at rest ⊢
    exact .sign (fun name => Kind.ofChar?_ne_name (name ▸ sign)) label rest
  | case5 pos run c cs arrow blank sign ih =>
    have longer : Text.encode (c :: run).reverse =
        Text.encode run.reverse ++ String.utf8EncodeChar c := by simp
    have width : (Text.encode (c :: run).reverse).length =
        (Text.encode run.reverse).length + c.utf8Size := by
      rw [longer, List.length_append, String.length_utf8EncodeChar]
    have rest := ih (unfinished.cons (by simpa using blank) sign arrow) (by omega)
    rw [width, Nat.add_sub_add_right] at rest
    simpa using rest

theorem laidOut_of_tokenize (tokens : tokenize s = .ok ts) :
    ∃ cs, s = Text.encode cs ∧ LaidOut 0 cs ts := by
  rw [tokenize] at tokens
  split at tokens
  · next cs decoded =>
    obtain rfl := Except.ok.inj tokens
    exact ⟨cs, Text.chars?_eq_some_iff.mp decoded, laidOut_scan (.empty cs) (Nat.zero_le _)⟩
  · contradiction

def Proper (token : Token) : Prop :=
  match token.kind with
  | .name => token.text.IsName
  | kind => token.text = kind.label

theorem Proper.text_ne_nil {token : Token} (proper : token.Proper) : token.text ≠ [] := by
  obtain ⟨kind, text, pos⟩ := token
  cases kind with
  | name => exact Text.IsName.ne_nil proper
  | _ =>
    have label : text = Kind.label _ := proper
    simp only [label]
    decide

namespace LaidOut

variable {pos : Nat} {token : Token}

theorem proper (laidOut : LaidOut pos cs ts) (member : token ∈ ts) : token.Proper := by
  induction laidOut with
  | nil => contradiction
  | blank blank rest ih => exact ih member
  | @sign ds cs ts pos kind proper label rest ih =>
    rcases List.mem_cons.mp member with rfl | member
    · cases kind with
      | name => contradiction
      | _ => rfl
    · exact ih member
  | name name ends rest ih =>
    rcases List.mem_cons.mp member with rfl | member
    · exact ⟨_, rfl, name⟩
    · exact ih member

/-- A token is some of the characters, and what follows a name is something that ends it. -/
theorem chars_at (laidOut : LaidOut pos cs ts) (member : token ∈ ts) :
    ∃ before ds after, cs = before ++ (ds ++ after) ∧ token.text = Text.encode ds ∧
      token.pos = pos + (Text.encode before).length ∧
      (token.kind = .name → NameChars ds ∧ Ends after) := by
  induction laidOut with
  | nil => contradiction
  | @blank c cs ts pos blank rest ih =>
    obtain ⟨before, ds, after, rfl, text, place, shape⟩ := ih member
    refine ⟨c :: before, ds, after, rfl, text, ?_, shape⟩
    rw [place, Text.length_encode_cons, Nat.add_assoc]
  | @sign ds cs ts pos kind proper label rest ih =>
    rcases List.mem_cons.mp member with rfl | member
    · exact ⟨[], ds, cs, rfl, label.symm, rfl, fun name => absurd name proper⟩
    · obtain ⟨before, es, after, rfl, text, place, shape⟩ := ih member
      refine ⟨ds ++ before, es, after, by simp, text, ?_, shape⟩
      rw [place, Text.encode_append, label, List.length_append, Nat.add_assoc]
  | @name ds cs ts pos name ends rest ih =>
    rcases List.mem_cons.mp member with rfl | member
    · exact ⟨[], ds, cs, rfl, rfl, rfl, fun _ => ⟨name, ends⟩⟩
    · obtain ⟨before, es, after, rfl, text, place, shape⟩ := ih member
      refine ⟨ds ++ before, es, after, by simp, text, ?_, shape⟩
      rw [place, Text.encode_append, List.length_append, Nat.add_assoc]

/-- A token is written at its position. -/
theorem text_at (laidOut : LaidOut pos cs ts) (member : token ∈ ts) :
    ∃ before after, Text.encode cs = before ++ (token.text ++ after) ∧
      pos + before.length = token.pos := by
  obtain ⟨before, ds, after, rfl, text, place, _⟩ := laidOut.chars_at member
  exact ⟨Text.encode before, Text.encode after, by simp [text], place.symm⟩

end LaidOut

theorem isName_of_mem_tokenize (tokens : tokenize s = .ok ts) (member : token ∈ ts)
    (name : token.kind = .name) : token.text.IsName := by
  obtain ⟨cs, _, laidOut⟩ := laidOut_of_tokenize tokens
  have proper := laidOut.proper member
  rwa [Proper, name] at proper

theorem closeRun_append (pos : Nat) (run : List Char) (ts us : List Token) :
    closeRun pos run (ts ++ us) = closeRun pos run ts ++ us := by
  cases run with
  | nil => rfl
  | cons c run => rfl

/-- After a blank the reading starts anew. -/
theorem scan_append_blank (pos : Nat) (run cs : List Char) {c : Char} (ds : List Char)
    (blank : Text.isBlank c = true) :
    ∃ pos', scan pos run (cs ++ c :: ds) = scan pos run cs ++ scan pos' [] ds := by
  fun_induction scan pos run cs with
  | case1 pos run =>
    refine ⟨pos + c.utf8Size, ?_⟩
    rw [List.nil_append, scan_blank pos run ds blank, ← closeRun_append, List.nil_append]
  | case2 pos run cs ih =>
    obtain ⟨pos', rest⟩ := ih
    refine ⟨pos', ?_⟩
    rw [List.cons_append, List.cons_append, scan_arrow, rest, ← List.cons_append, closeRun_append]
  | case3 pos run d cs arrow isBlank ih =>
    obtain ⟨pos', rest⟩ := ih
    refine ⟨pos', ?_⟩
    rw [List.cons_append, scan_blank pos run _ isBlank, rest, closeRun_append]
  | case4 pos run d cs arrow notBlank kind sign ih =>
    obtain ⟨pos', rest⟩ := ih
    refine ⟨pos', ?_⟩
    rw [List.cons_append, scan_sign pos run _ sign, rest, ← List.cons_append, closeRun_append]
  | case5 pos run d cs arrow notBlank sign ih =>
    obtain ⟨pos', rest⟩ := ih
    have apart : ¬['-', '>'] <+: d :: (cs ++ c :: ds) := by
      cases cs with
      | nil =>
        rintro starts
        obtain ⟨rfl, _⟩ := List.cons_prefix_cons.mp (List.cons_prefix_cons.mp starts).2
        contradiction
      | cons e cs =>
        intro starts
        obtain ⟨rfl, tail⟩ := List.cons_prefix_cons.mp starts
        obtain ⟨rfl, _⟩ := List.cons_prefix_cons.mp tail
        exact arrow cs rfl rfl
    refine ⟨pos', ?_⟩
    rw [List.cons_append, scan_name_char pos run (by simpa using notBlank) sign apart, rest]

/-- A token after an unfinished name is the name itself or one of the tokens that follow. -/
theorem closeRun_eq_append {pos : Nat} {token : Token}
    (tokens : closeRun pos run ts = before ++ token :: after) :
    (run ≠ [] ∧ before = [] ∧ token.pos = pos - (Text.encode run.reverse).length) ∨
      ∃ before', before = closeRun pos run before' ∧ ts = before' ++ token :: after := by
  cases run with
  | nil => exact .inr ⟨before, rfl, tokens⟩
  | cons c run =>
    rw [closeRun_of_ne_nil (by simp)] at tokens
    cases before with
    | nil =>
      obtain ⟨rfl, rfl⟩ := List.cons.inj tokens
      exact .inl ⟨by simp, rfl, rfl⟩
    | cons first before =>
      obtain ⟨rfl, rest⟩ := List.cons.inj tokens
      exact .inr ⟨before, rfl, rest⟩

/-- The tokens before one of the tokens are those of the characters before it. -/
theorem scan_before {pos : Nat} {token : Token} (fits : (Text.encode run.reverse).length ≤ pos)
    (tokens : scan pos run cs = before ++ token :: after) :
    (run ≠ [] ∧ before = [] ∧ token.pos = pos - (Text.encode run.reverse).length) ∨
      ∃ ds es, cs = ds ++ es ∧ scan pos run ds = before ∧
        token.pos = pos + (Text.encode ds).length := by
  fun_induction scan pos run cs generalizing before with
  | case1 pos run =>
    rcases closeRun_eq_append tokens with first | ⟨before, rfl, later⟩
    · exact .inl first
    · simp at later
  | case2 pos run cs ih =>
    rcases closeRun_eq_append tokens with first | ⟨before, rfl, later⟩
    · exact .inl first
    · cases before with
      | nil =>
        obtain ⟨rfl, _⟩ := List.cons.inj later
        exact .inr ⟨[], '-' :: '>' :: cs, rfl, rfl, rfl⟩
      | cons sign before =>
        obtain ⟨rfl, rest⟩ := List.cons.inj later
        rcases ih (Nat.zero_le _) rest with ⟨nonempty, _⟩ | ⟨ds, es, rfl, rfl, place⟩
        · contradiction
        · refine .inr ⟨'-' :: '>' :: ds, es, rfl, scan_arrow pos run ds, ?_⟩
          rw [place, Text.length_encode_cons, Text.length_encode_cons, Nat.add_assoc,
            ← Nat.add_assoc ('-').utf8Size]
          rfl
  | case3 pos run c cs arrow blank ih =>
    rcases closeRun_eq_append tokens with first | ⟨before, rfl, later⟩
    · exact .inl first
    · rcases ih (Nat.zero_le _) later with ⟨nonempty, _⟩ | ⟨ds, es, rfl, rfl, place⟩
      · contradiction
      · refine .inr ⟨c :: ds, es, rfl, scan_blank pos run ds blank, ?_⟩
        rw [place, Text.length_encode_cons, Nat.add_assoc]
  | case4 pos run c cs arrow blank kind sign ih =>
    rcases closeRun_eq_append tokens with first | ⟨before, rfl, later⟩
    · exact .inl first
    · cases before with
      | nil =>
        obtain ⟨rfl, _⟩ := List.cons.inj later
        exact .inr ⟨[], c :: cs, rfl, rfl, rfl⟩
      | cons first before =>
        obtain ⟨rfl, rest⟩ := List.cons.inj later
        rcases ih (Nat.zero_le _) rest with ⟨nonempty, _⟩ | ⟨ds, es, rfl, rfl, place⟩
        · contradiction
        · refine .inr ⟨c :: ds, es, rfl, scan_sign pos run ds sign, ?_⟩
          rw [place, Text.length_encode_cons, Nat.add_assoc]
  | case5 pos run c cs arrow blank sign ih =>
    have width : (Text.encode (c :: run).reverse).length =
        (Text.encode run.reverse).length + c.utf8Size := by
      simp [String.length_utf8EncodeChar]
    rcases ih (by omega) tokens with ⟨_, rfl, place⟩ | ⟨ds, es, rfl, rfl, place⟩
    · rw [width, Nat.add_sub_add_right] at place
      cases run with
      | nil => exact .inr ⟨[], c :: cs, rfl, rfl, place⟩
      | cons d run => exact .inl ⟨by simp, rfl, place⟩
    · have apart : ¬['-', '>'] <+: c :: ds := by
        intro starts
        obtain ⟨rfl, tail⟩ := List.cons_prefix_cons.mp starts
        obtain ⟨ds, rfl⟩ := tail
        exact arrow (ds ++ es) rfl rfl
      refine .inr ⟨c :: ds, es, rfl, scan_name_char pos run (by simpa using blank) sign apart, ?_⟩
      rw [place, Text.length_encode_cons, Nat.add_assoc]

end Token

end Turnstile
