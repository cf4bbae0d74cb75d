import DeviceAttest.Json.Token
import Mathlib.Data.List.Basic

/-!
# Scalar values read back as tokens

A string that is written is read back as one token, character for character, whatever follows
(`readString_writeInner`).  Decimal digits are read back as their number if what follows `Ends` it,
since a reader takes as many digits as there are (`readMagnitude_toDigits`).
-/

namespace DeviceAttest.Json.Token

/-! ### Strings -/

/-- The part of a string that the escape of a character is read as. -/
def Piece.ofChar (c : Char) : Piece :=
  if c < ' ' ∧ c ∉ ['\x08', '\x0c', '\n', '\r', '\t'] then .unit c.toNat else .char c

/-- The digits that escape a control character spell its number. -/
theorem fourDigits?_hexDigit {n : Nat} (h : n < ' '.toNat) :
    fourDigits? '0' '0' (Bytes.hexDigit .lower (n / 16)) (Bytes.hexDigit .lower (n % 16)) =
      some n := by
  have below : ∀ n < 32,
      fourDigits? '0' '0' (Bytes.hexDigit .lower (n / 16)) (Bytes.hexDigit .lower (n % 16)) =
        some n := by decide
  exact below n h

/-- A character that needs no escape is read as itself. -/
theorem readPieces_plain {c : Char} (hquote : c ≠ '"') (hslash : c ≠ '\\') (h : ¬ c < ' ')
    (s : List Char) :
    readPieces (c :: s) = (readPieces s).map fun (pieces, rest) => (.char c :: pieces, rest) := by
  rw [readPieces, if_neg h]
  · cases readPieces s <;> rfl
  · exact hquote
  · exact fun _ _ _ _ _ hc => absurd hc hslash
  · exact fun _ _ hc => absurd hc hslash

/-- A control character is read by its number. -/
theorem readPieces_control {c : Char} (h : c < ' ') (s : List Char) :
    readPieces ('\\' :: 'u' :: '0' :: '0' ::
        (Bytes.hexOctet .lower (UInt8.ofNat c.toNat) ++ s)) =
      (readPieces s).map fun (pieces, rest) => (.unit c.toNat :: pieces, rest) := by
  have hoctet : (UInt8.ofNat c.toNat).toNat = c.toNat :=
    Nat.mod_eq_of_lt (Nat.lt_trans h (by decide))
  have hdigits := fourDigits?_hexDigit (n := c.toNat) h
  rw [Bytes.hexOctet, hoctet]
  show (do let u ← fourDigits? _ _ _ _; _) = _
  rw [hdigits]
  show (do let (pieces, rest) ← readPieces s; _) = _
  cases readPieces s <;> rfl

/-- The escape of a character is read as one part. -/
theorem readPieces_escape (c : Char) (s : List Char) :
    readPieces (escape c ++ s) =
      (readPieces s).map fun (pieces, rest) => (.ofChar c :: pieces, rest) := by
  by_cases hletter : c ∈ ['"', '\\', '\x08', '\x0c', '\n', '\r', '\t']
  · have bound (p : Piece) :
        (do let (pieces, rest) ← readPieces s; some (p :: pieces, rest)) =
          (readPieces s).map fun (pieces, rest) => (p :: pieces, rest) := by
      cases readPieces s <;> rfl
    simp only [List.mem_cons, List.not_mem_nil, or_false] at hletter
    rcases hletter with rfl | rfl | rfl | rfl | rfl | rfl | rfl <;> exact bound _
  · simp only [List.mem_cons, List.not_mem_nil, or_false, not_or] at hletter
    obtain ⟨hquote, hslash, hrest⟩ := hletter
    by_cases h : c < ' '
    · have hescape : escape c =
          ['\\', 'u', '0', '0'] ++ Bytes.hexOctet .lower (UInt8.ofNat c.toNat) := by
        simp [escape, hquote, hslash, hrest, h]
      have hpiece : Piece.ofChar c = .unit c.toNat := if_pos ⟨h, by simpa using hrest⟩
      rw [hescape, hpiece]
      exact readPieces_control h s
    · have hescape : escape c = [c] := by simp [escape, hquote, hslash, hrest, h]
      have hpiece : Piece.ofChar c = .char c := if_neg fun hc => h hc.1
      rw [hescape, hpiece]
      exact readPieces_plain hquote hslash h s

/-- The part that a character is read as stands for the character. -/
theorem joinPieces_ofChar (c : Char) (pieces : List Piece) :
    joinPieces (.ofChar c :: pieces) = (joinPieces pieces).map (c :: ·) := by
  unfold Piece.ofChar
  split
  · next h =>
    have hsmall : c.toNat < 0xd800 := Nat.lt_trans h.1 (by decide)
    rw [joinPieces.eq_def]
    dsimp only
    rw [if_pos (.inl hsmall), Char.ofNat_toNat]
  · rw [joinPieces]

theorem readPieces_flatMap_escape (cs s : List Char) :
    readPieces (cs.flatMap escape ++ '"' :: s) = some (cs.map .ofChar, s) := by
  induction cs with
  | nil => rw [List.flatMap_nil, List.nil_append, readPieces, List.map_nil]
  | cons c cs ih => rw [List.flatMap_cons, List.append_assoc, readPieces_escape, ih]; rfl

theorem joinPieces_map_ofChar (cs : List Char) : joinPieces (cs.map .ofChar) = some cs := by
  induction cs with
  | nil => rw [List.map_nil, joinPieces]
  | cons c cs ih => rw [List.map_cons, joinPieces_ofChar, ih, Option.map_some]

/-- **A string that is written is read back**, with or without a text. -/
theorem readString_writeInner (text : JsonText) (s : List Char) :
    readString (writeInner text ++ '"' :: s) = some (string text, s) := by
  cases text with
  | none => rfl
  | some text =>
    rw [readString, writeInner, readPieces_flatMap_escape]
    simp [joinPieces_map_ofChar]

/-! ### Numbers -/

/-- What follows a number ends it: there is nothing more, or a comma or closing bracket. -/
def Ends (s : List Char) : Prop := ∀ c ∈ s.head?, c ∈ [',', ']', '}']

theorem ends_nil : Ends [] := fun _ h => absurd h (by simp)

theorem ends_cons {c : Char} (h : c ∈ [',', ']', '}']) (s : List Char) : Ends (c :: s) := by
  rintro _ ⟨⟩
  exact h

section

variable {s : List Char}

/-- What ends a number does not prolong it. -/
theorem Ends.takeWhile_isDigit (h : Ends s) : s.takeWhile Char.isDigit = [] := by
  cases s with
  | nil => rfl
  | cons c s =>
    obtain rfl | rfl | rfl : c = ',' ∨ c = ']' ∨ c = '}' := by simpa using h c rfl
    all_goals rfl

theorem Ends.dropFraction (h : Ends s) : dropFraction s = some s := by
  unfold Token.dropFraction
  split
  · exact absurd (h '.' rfl) (by decide)
  · rfl

theorem Ends.dropExponent (h : Ends s) : dropExponent s = some s := by
  unfold Token.dropExponent
  split
  · exact absurd (h 'e' rfl) (by decide)
  · exact absurd (h 'e' rfl) (by decide)
  · exact absurd (h 'E' rfl) (by decide)
  · exact absurd (h 'E' rfl) (by decide)
  · exact absurd (h 'e' rfl) (by decide)
  · exact absurd (h 'E' rfl) (by decide)
  · rfl

end

theorem ofDigits_toDigits (n : Nat) : ofDigits (Nat.toDigits 10 n) = n := by
  simp only [ofDigits, Nat.mul_comm _ 10]
  exact Nat.ofDigitChars_ten_toDigits

/-- Only the digits of zero begin with zero. -/
theorem head?_toDigits_eq_zero_iff (n : Nat) : (Nat.toDigits 10 n).head? = some '0' ↔ n = 0 := by
  induction n using Nat.strongRecOn with
  | ind n ih =>
    rw [Nat.toDigits_eq_if (by decide)]
    split
    · next h =>
      have hdigit : ∀ n < 10, n.digitChar = '0' ↔ n = 0 := by decide
      rw [List.head?_cons, Option.some_inj]
      exact hdigit n h
    · next h =>
      rw [List.head?_append_of_ne_nil _ Nat.toDigits_ne_nil, ih _ (by omega)]
      omega

/-- **The digits of a number are read back** as the number, or its negation after a sign.  A zero
with a sign is no integer. -/
theorem readMagnitude_toDigits (negative : Bool) (n : Nat) {s : List Char} (h : Ends s) :
    readMagnitude negative (Nat.toDigits 10 n ++ s) =
      some (if negative ∧ n = 0 then decimal else integer (if negative then -n else n), s) := by
  have hdigits : (if (Nat.toDigits 10 n ++ s).head? = some '0' then ['0']
      else (Nat.toDigits 10 n ++ s).takeWhile Char.isDigit) = Nat.toDigits 10 n := by
    have hall : ∀ c ∈ Nat.toDigits 10 n, c.isDigit := fun _ =>
      Nat.isDigit_of_mem_toDigits (by decide) (by decide)
    rw [List.head?_append_of_ne_nil _ Nat.toDigits_ne_nil, List.takeWhile_append_of_pos hall,
      h.takeWhile_isDigit, List.append_nil]
    -- a leading zero is read as the whole number, and of these digits only those of zero have one
    split
    · next hhead => rw [(head?_toDigits_eq_zero_iff n).mp hhead]; rfl
    · rfl
  simp only [readMagnitude, hdigits, List.drop_left, if_neg Nat.toDigits_ne_nil, h.dropFraction,
    h.dropExponent, ofDigits_toDigits, Option.bind_eq_bind, Option.bind_some, Nat.lt_irrefl,
    false_or]
  split
  · rfl
  · rfl

/-- A token that begins with a digit is a number. -/
theorem read_of_isDigit {c : Char} (h : c.isDigit) (s : List Char) :
    read c s = readMagnitude false (c :: s) := by
  unfold read
  split
  all_goals first
    | rfl
    | exact absurd h (by decide)

end DeviceAttest.Json.Token
