import Turnstile.CommandLine.Command
import Turnstile.Proofs.Utf8

/-! The decimal notation of an integer that fits into 64 bits is read back, and the words that
ask for a check with some limits and switches are read as just these settings, whatever sequents
follow. Other ways to write the same flags are not covered. -/
namespace Turnstile

namespace Text

def digitByte (d : Nat) : UInt8 :=
  UInt8.ofNat (0x30 + d)

theorem utf8EncodeChar_digitChar {d : Nat} (small : d < 10) :
    String.utf8EncodeChar d.digitChar = [digitByte d] := by
  revert d
  decide

theorem digit?_digitByte {d : Nat} (small : d < 10) : digit? (digitByte d) = some d := by
  revert d
  decide

theorem ofNat_eq_encode (n : Nat) : ofNat n = encode (Nat.toDigits 10 n) := by
  have digits : (toString n).toList = Nat.toDigits 10 n := String.toList_ofList
  rw [ofNat, ofString, digits]

theorem ofNat_of_lt {n : Nat} (small : n < 10) : ofNat n = [digitByte n] := by
  rw [ofNat_eq_encode, Nat.toDigits_of_lt_base small, encode_cons, encode_nil, List.append_nil,
    utf8EncodeChar_digitChar small]

theorem ofNat_of_le {n : Nat} (large : 10 ≤ n) :
    ofNat n = ofNat (n / 10) ++ [digitByte (n % 10)] := by
  rw [ofNat_eq_encode, Nat.toDigits_eq_if (by decide), if_neg (by omega), encode_append,
    ← ofNat_eq_encode, encode_cons, encode_nil, List.append_nil,
    utf8EncodeChar_digitChar (Nat.mod_lt n (by decide))]

theorem mem_ofNat {n : Nat} {b : UInt8} (member : b ∈ ofNat n) : ∃ d < 10, b = digitByte d := by
  induction n using Nat.strongRecOn with
  | ind n ih =>
    by_cases small : n < 10
    · rw [ofNat_of_lt small, List.mem_singleton] at member
      exact ⟨n, small, member⟩
    · rw [ofNat_of_le (by omega), List.mem_append, List.mem_singleton] at member
      rcases member with member | last
      · exact ih (n / 10) (by omega) member
      · exact ⟨n % 10, by omega, last⟩

theorem not_mem_ofNat {b : UInt8} (sign : digit? b = none) (n : Nat) : b ∉ ofNat n := by
  intro member
  obtain ⟨d, small, rfl⟩ := mem_ofNat member
  rw [digit?_digitByte small] at sign
  contradiction

theorem head?_ofNat_ne {b : UInt8} (sign : digit? b = none) (n : Nat) :
    (ofNat n).head? ≠ some b :=
  fun first => not_mem_ofNat sign n (List.mem_of_head? first)

/-- The first digit is 0 for the number 0 only. -/
theorem exists_ofNat_eq_cons (n : Nat) : ∃ d rest, ofNat n = digitByte d :: rest ∧ d < 10 ∧
    (n ≠ 0 → d ≠ 0) := by
  induction n using Nat.strongRecOn with
  | ind n ih =>
    by_cases small : n < 10
    · exact ⟨n, [], ofNat_of_lt small, small, id⟩
    · obtain ⟨d, rest, digits, bound, nonzero⟩ := ih (n / 10) (by omega)
      refine ⟨d, rest ++ [digitByte (n % 10)], ?_, bound, fun _ => nonzero (by omega)⟩
      rw [ofNat_of_le (by omega), digits, List.cons_append]

theorem readDigits_digit {d n : Nat} (small : d < 10) (fits : n * 10 + d < 1 <<< 64) (s : Text) :
    readDigits 10 n (digitByte d :: s) = readDigits 10 (n * 10 + d) s := by
  have isDigit := digit?_digitByte small
  rw [readDigits]
  · simp only [isDigit]
    rw [if_neg (by omega), if_neg (by omega)]
  · rintro underscore
    rw [underscore] at isDigit
    contradiction

theorem readDigits_ofNat {n : Nat} (fits : n < 1 <<< 64) (s : Text) :
    readDigits 10 0 (ofNat n ++ s) = readDigits 10 n s := by
  induction n using Nat.strongRecOn generalizing s with
  | ind n ih =>
    by_cases small : n < 10
    · rw [ofNat_of_lt small, List.singleton_append, readDigits_digit small (by omega)]
      simp
    · have sum : n / 10 * 10 + n % 10 = n := by omega
      rw [ofNat_of_le (by omega), List.append_assoc, ih (n / 10) (by omega) (by omega),
        List.singleton_append, readDigits_digit (by omega) (by omega), sum]

theorem splitBase_of_digit {d : Nat} (small : d < 10) (nonzero : d ≠ 0) (s : Text) :
    splitBase (digitByte d :: s) = (10, digitByte d :: s) := by
  have apart : digitByte d ≠ 0x30 := by
    revert d
    decide
  rw [splitBase.eq_def]
  split <;> simp_all

theorem readNatural_ofNat {n : Nat} (fits : n < 1 <<< 64) : readNatural (ofNat n) = .ok n := by
  obtain ⟨d, rest, digits, small, nonzero⟩ := exists_ofNat_eq_cons n
  by_cases zero : n = 0
  · subst zero
    rfl
  · have nonempty : (ofNat n).isEmpty = false := by rw [digits]; rfl
    have base : splitBase (ofNat n) = (10, ofNat n) := by
      rw [digits, splitBase_of_digit small (nonzero zero)]
    have value : readDigits 10 0 (ofNat n) = .ok n := by
      simpa [readDigits] using readDigits_ofNat fits []
    have underscore : 0x5F ∉ ofNat n := not_mem_ofNat rfl n
    rw [readNatural, nonempty, base]
    simp [value, underscore]

def Fits (n : Int) : Prop :=
  -0x8000000000000000 ≤ n ∧ n < 0x8000000000000000

theorem readInteger_ofInt {n : Int} (fits : Fits n) : readInteger (ofInt n) = .ok n := by
  obtain ⟨lower, upper⟩ := fits
  cases n with
  | ofNat n =>
    have minus := @head?_ofNat_ne 0x2D rfl n
    have plus := @head?_ofNat_ne 0x2B rfl n
    have bound : n < 0x8000000000000000 := Int.ofNat_lt.mp upper
    have read : readNatural (ofNat n) = .ok n := readNatural_ofNat (by omega)
    simpa [readInteger, ofInt, minus, plus, read] using bound
  | negSucc n =>
    have bound : n + 1 ≤ 0x8000000000000000 := by omega
    have read : readNatural (ofNat (n + 1)) = .ok (n + 1) := readNatural_ofNat (by omega)
    have minus : Text.ofString "-" = [0x2D] := rfl
    have small : ¬0x8000000000000000 < n + 1 := by omega
    have negated : -((n : Int) + 1) = Int.negSucc n := (Int.negSucc_eq n).symm
    simp [readInteger, ofInt, minus, read, small, negated]

end Text

namespace FlagWord

variable {known : List Flag} {flag : Flag}

theorem takeWhile_name_append (flag : Flag) (s : Text) :
    (flag.name ++ s).takeWhile (· ≠ 0x3D) = flag.name ++ s.takeWhile (· ≠ 0x3D) := by
  have letters : flag.name.all (· ≠ 0x3D) = true := by cases flag <;> rfl
  exact List.takeWhile_append_of_pos (List.all_eq_true.mp letters)

/-- A name that has a value after it in the same word. -/
theorem ofName_of_value (found : known.find? (·.name = flag.name) = some flag) (value : Text) :
    ofName known (flag.name ++ 0x3D :: value) = .ok { given := [(flag, value)] } := by
  have name : (flag.name ++ 0x3D :: value).takeWhile (· ≠ 0x3D) = flag.name := by
    rw [takeWhile_name_append]
    exact List.append_nil _
  simp only [ofName, name, found, List.drop_left]

theorem ofName_of_switch (found : known.find? (·.name = flag.name) = some flag)
    (isSwitch : flag.isSwitch = true) :
    ofName known flag.name = .ok { given := [(flag, "true")] } := by
  have name : flag.name.takeWhile (· ≠ 0x3D) = flag.name := by
    have whole := takeWhile_name_append flag []
    rwa [List.append_nil, List.takeWhile_nil, List.append_nil] at whole
  simp only [ofName, name, found, List.drop_length, isSwitch, if_true]

/-- Two dashes before a name are no mistake, since it starts with a letter. -/
theorem ofWord_name (known : List Flag) (flag : Flag) (s : Text) :
    ofWord known (0x2D :: 0x2D :: (flag.name ++ s)) = some <$> ofName known (flag.name ++ s) := by
  have letter : flag.name.head?.any (fun b => b != 0x2D && b != 0x3D) = true := by
    cases flag <;> rfl
  cases name : flag.name with
  | nil => simp [name] at letter
  | cons b rest =>
    have first : b ≠ 0x2D ∧ b ≠ 0x3D := by simpa [name] using letter
    rw [ofWord, if_neg (by simpa using first)]

end FlagWord

namespace Settings

variable {known : List Flag} {flag : Flag} {s s' : Settings}

theorem readWords_dashes (known : List Flag) (rest : List Text) (s : Settings) :
    readWords known ("--" :: rest) s = .ok (s, rest) := by
  unfold readWords
  rw [if_pos rfl]

/-- A word with flags that all have their values. -/
theorem readWords_given {word : Text} (notDashes : word ≠ "--")
    (asks : FlagWord.ofWord known word = .ok (some { given := given }))
    (set : s.setAll given = .ok s') (rest : List Text) :
    readWords known (word :: rest) s = readWords known rest s' := by
  rw [readWords.eq_def]
  simp only [if_neg notDashes, asks, set]
  rfl

theorem setAll_singleton {value : Text} (set : s.set flag value = .ok s') :
    s.setAll [(flag, value)] = .ok s' := by
  simp only [setAll, List.foldlM_cons, set, List.foldlM_nil]
  rfl

theorem readWords_value (found : known.find? (·.name = flag.name) = some flag) {value : Text}
    (set : s.set flag value = .ok s') (rest : List Text) :
    readWords known ((0x2D :: 0x2D :: (flag.name ++ 0x3D :: value)) :: rest) s =
      readWords known rest s' := by
  have notDashes : 0x2D :: 0x2D :: (flag.name ++ 0x3D :: value) ≠ [0x2D, 0x2D] := by simp
  have word := FlagWord.ofWord_name known flag (0x3D :: value)
  rw [FlagWord.ofName_of_value found] at word
  exact readWords_given notDashes word (setAll_singleton set) rest

theorem readWords_switch (found : known.find? (·.name = flag.name) = some flag)
    (isSwitch : flag.isSwitch = true) (set : s.set flag "true" = .ok s') (rest : List Text) :
    readWords known ((0x2D :: 0x2D :: flag.name) :: rest) s = readWords known rest s' := by
  have notDashes : 0x2D :: 0x2D :: flag.name ≠ "--" := by cases flag <;> decide
  have word := FlagWord.ofWord_name known flag []
  rw [List.append_nil, FlagWord.ofName_of_switch found isSwitch] at word
  exact readWords_given notDashes word (setAll_singleton set) rest

theorem set_maxPasses {n : Int} (fits : Text.Fits n) (s : Settings) :
    s.set .maxPasses (Text.ofInt n) = .ok { s with maxPasses := n } := by
  rw [set, readBound, Text.readInteger_ofInt fits]
  rfl

theorem set_maxVars {n : Int} (fits : Text.Fits n) (s : Settings) :
    s.set .maxVars (Text.ofInt n) = .ok { s with maxVars := n } := by
  rw [set, readBound, Text.readInteger_ofInt fits]
  rfl

end Settings

def switchWords (table trim : Bool) : List Text :=
  (if table then [Text.ofString "--table"] else []) ++ if trim then [Text.ofString "--trim"] else []

def checkWords (limits : Limits) (table trim : Bool) (sequents : List Text) : List Text :=
  "check" :: ("--max-passes=" ++ Text.ofInt limits.maxPasses) ::
    ("--max-vars=" ++ Text.ofInt limits.maxVars) ::
      (switchWords table trim ++ Text.ofString "--" :: sequents)

def checkSettings (limits : Limits) (table trim : Bool) : Settings :=
  { maxPasses := limits.maxPasses, maxVars := limits.maxVars, table := table, trim := trim }

theorem readWords_switchWords (s : Settings) (table trim : Bool) (sequents : List Text) :
    Settings.readWords Command.check.flags
        (switchWords table trim ++ Text.ofString "--" :: sequents) s =
      .ok ({ s with table := s.table || table, trim := s.trim || trim }, sequents) := by
  have dashes := Settings.readWords_dashes Command.check.flags sequents
  have tableOn := @Settings.readWords_switch Command.check.flags .table
  have trimOn := @Settings.readWords_switch Command.check.flags .trim
  cases table <;> cases trim <;> simp only [Bool.or_false, Bool.or_true]
  · exact dashes s
  · exact (trimOn rfl rfl rfl _).trans (dashes _)
  · exact (tableOn rfl rfl rfl _).trans (dashes _)
  · exact ((tableOn rfl rfl rfl _).trans (trimOn rfl rfl rfl _)).trans (dashes _)

section CheckWords

variable {limits : Limits} (fitsPasses : Text.Fits limits.maxPasses)
variable (fitsVars : Text.Fits limits.maxVars) (table trim : Bool) (sequents : List Text)

theorem commandWord?_check (rest : List Text) :
    Invocation.commandWord? ("check" :: rest) = some (Text.ofString "check") := by
  rw [Invocation.commandWord?.eq_def]
  rfl

theorem dropCommand_check (rest : List Text) :
    Invocation.dropCommand "check" ("check" :: rest) = rest := by
  rw [Invocation.dropCommand.eq_def]
  rfl

include fitsPasses fitsVars

theorem readWords_checkWords : Settings.readWords Command.check.flags
      (Invocation.dropCommand "check" (checkWords limits table trim sequents)) {} =
    .ok (checkSettings limits table trim, sequents) := by
  rw [checkWords, dropCommand_check]
  have passes := @Settings.readWords_value Command.check.flags .maxPasses
  have vars := @Settings.readWords_value Command.check.flags .maxVars
  exact ((passes rfl (Settings.set_maxPasses fitsPasses _) _).trans
    (vars rfl (Settings.set_maxVars fitsVars _) _)).trans
    (readWords_switchWords _ table trim sequents)

theorem ofWords_checkWords (allowed : limits.maxVars ≤ Table.greatestLimit) :
    Invocation.ofWords (checkWords limits table trim sequents) =
      .ok (.run .check (checkSettings limits table trim) sequents) := by
  have command : Command.ofName? "check" = some .check := rfl
  have read := readWords_checkWords fitsPasses fitsVars table trim sequents
  have notTooLarge : ¬(Table.greatestLimit : Int) < (checkSettings limits table trim).maxVars :=
    Int.not_lt.mpr allowed
  rw [Invocation.ofWords, checkWords, commandWord?_check, ← checkWords]
  simp only [command, read]
  exact if_neg notTooLarge

end CheckWords

end Turnstile
