import DeviceAttest.Json.Basic

/-!
# Tokens of JSON text

A JSON text is brackets, commas, colons and scalar values with blanks between them.  `tokens?`
splits a text into these; what order they may stand in is no concern of this module.
-/

namespace DeviceAttest.Json

/-- A token of a JSON text. -/
inductive Token where
  | openArray | closeArray | openObject | closeObject | comma | colon
  | null
  | bool (value : Bool)
  | integer (value : Int)
  | decimal
  | string (text : JsonText)
  deriving DecidableEq

namespace Token

/-! ### Strings -/

/-- A part of a string: a character, or a code unit given by number. -/
inductive Piece where
  | char (c : Char)
  | unit (u : Nat)
  deriving DecidableEq

/-- The number that four hexadecimal digits spell. -/
def fourDigits? (a b c d : Char) : Option Nat := do
  let a ← Bytes.hexValue? a
  let b ← Bytes.hexValue? b
  let c ← Bytes.hexValue? c
  let d ← Bytes.hexValue? d
  some (((a * 16 + b) * 16 + c) * 16 + d)

/-- The character that a letter stands for after a backslash. -/
def unescape? (c : Char) : Option Char :=
  match c with
  | '"' | '\\' | '/' => some c
  | 'b'              => some '\x08'
  | 'f'              => some '\x0c'
  | 'n'              => some '\n'
  | 'r'              => some '\r'
  | 't'              => some '\t'
  | _                => none

/-- Reads the parts of a string through its closing quote. -/
def readPieces : List Char → Option (List Piece × List Char)
  | '"' :: s                            => some ([], s)
  | '\\' :: 'u' :: a :: b :: c :: d :: s => do
    let u ← fourDigits? a b c d
    let (pieces, s) ← readPieces s
    some (.unit u :: pieces, s)
  | '\\' :: e :: s                      => do
    let c ← unescape? e
    let (pieces, s) ← readPieces s
    some (.char c :: pieces, s)
  | c :: s                              =>
    if c < ' ' then none
    else do
      let (pieces, s) ← readPieces s
      some (.char c :: pieces, s)
  | []                                  => none

/-- Joins the parts of a string; two code units may make up one character. -/
def joinPieces : List Piece → Option (List Char)
  | []                => some []
  | .char c :: pieces => (joinPieces pieces).map (c :: ·)
  | .unit u :: pieces =>
    if u < 0xd800 ∨ 0xdfff < u then (joinPieces pieces).map (Char.ofNat u :: ·)
    else if u < 0xdc00 then
      match pieces with
      | .unit v :: pieces =>
        if 0xdc00 ≤ v ∧ v ≤ 0xdfff then
          (joinPieces pieces).map
            (Char.ofNat (0x10000 + (u - 0xd800) * 0x400 + (v - 0xdc00)) :: ·)
        else none
      | _                 => none
    else none

/-- Reads a string after its opening quote. -/
def readString (s : List Char) : Option (Token × List Char) := do
  let (pieces, s) ← readPieces s
  some (string ((joinPieces pieces).map String.ofList), s)

/-! ### Numbers -/

/-- Drops one or more digits. -/
def dropDigits (s : List Char) : Option (List Char) :=
  if s.head?.any Char.isDigit then some (s.dropWhile Char.isDigit) else none

/-- Drops a fraction, if there is one; it has at least one digit. -/
def dropFraction (s : List Char) : Option (List Char) :=
  match s with
  | '.' :: s => dropDigits s
  | _        => some s

/-- Drops an exponent, if there is one; it has at least one digit. -/
def dropExponent (s : List Char) : Option (List Char) :=
  match s with
  | 'e' :: '+' :: s | 'e' :: '-' :: s | 'E' :: '+' :: s | 'E' :: '-' :: s => dropDigits s
  | 'e' :: s | 'E' :: s                                                 => dropDigits s
  | _                                                                   => some s

/-- The number that decimal digits spell. -/
def ofDigits (digits : List Char) : Nat :=
  digits.foldl (fun n c => n * 10 + (c.toNat - '0'.toNat)) 0

/-- Reads a number without sign; a number of several digits does not begin with zero. -/
def readMagnitude (negative : Bool) (s : List Char) : Option (Token × List Char) := do
  let digits := if s.head? = some '0' then ['0'] else s.takeWhile Char.isDigit
  let rest := s.drop digits.length
  let magnitude := ofDigits digits
  if digits = [] then none
  else
    let rest' ← dropFraction rest
    let rest' ← dropExponent rest'
    if rest'.length < rest.length ∨ negative ∧ magnitude = 0 then some (decimal, rest')
    else some (integer (if negative then -magnitude else magnitude), rest')

/-- Drops an expected text. -/
def dropText : List Char → List Char → Option (List Char)
  | [], s          => some s
  | c :: cs, d :: s => if c = d then dropText cs s else none
  | _, _           => none

/-! ### Tokens -/

/-- Whether a character is a blank between tokens. -/
def isBlank (c : Char) : Bool := c = ' ' || c = '\n' || c = '\t' || c = '\r'

/-- Reads the token that begins with a character. -/
def read (c : Char) (s : List Char) : Option (Token × List Char) :=
  match c with
  | '[' => some (openArray, s)
  | ']' => some (closeArray, s)
  | '{' => some (openObject, s)
  | '}' => some (closeObject, s)
  | ',' => some (comma, s)
  | ':' => some (colon, s)
  | '"' => readString s
  | '-' => readMagnitude true s
  | 'n' => (dropText ['u', 'l', 'l'] s).map (null, ·)
  | 't' => (dropText ['r', 'u', 'e'] s).map (bool true, ·)
  | 'f' => (dropText ['a', 'l', 's', 'e'] s).map (bool false, ·)
  | _   => readMagnitude false (c :: s)

theorem length_of_readPieces {s r : List Char} {pieces : List Piece}
    (h : readPieces s = some (pieces, r)) : r.length < s.length := by
  fun_induction readPieces s generalizing pieces r with
  | case1 s =>
    obtain ⟨_, rfl⟩ := Prod.mk.inj (Option.some.inj h)
    simp
  | case2 a b c d s ih =>
    simp only [Option.bind_eq_bind, Option.bind_eq_some_iff, Prod.exists] at h
    obtain ⟨u, _, later, t, hs, h⟩ := h
    obtain ⟨_, rfl⟩ := Prod.mk.inj (Option.some.inj h)
    have := ih hs
    simp only [List.length_cons]
    omega
  | case3 e s _ ih =>
    simp only [Option.bind_eq_bind, Option.bind_eq_some_iff, Prod.exists] at h
    obtain ⟨c, _, later, t, hs, h⟩ := h
    obtain ⟨_, rfl⟩ := Prod.mk.inj (Option.some.inj h)
    have := ih hs
    simp only [List.length_cons]
    omega
  | case4 => cases h
  | case5 c s _ _ _ _ ih =>
    simp only [Option.bind_eq_bind, Option.bind_eq_some_iff, Prod.exists] at h
    obtain ⟨later, t, hs, h⟩ := h
    obtain ⟨_, rfl⟩ := Prod.mk.inj (Option.some.inj h)
    have := ih hs
    simp only [List.length_cons]
    omega
  | case6 => cases h

theorem length_of_readString {s r : List Char} {t : Token}
    (h : readString s = some (t, r)) : r.length < s.length := by
  simp only [readString, Option.bind_eq_bind, Option.bind_eq_some_iff, Prod.exists] at h
  obtain ⟨pieces, s₁, hs, h⟩ := h
  obtain ⟨_, rfl⟩ := Prod.mk.inj (Option.some.inj h)
  exact length_of_readPieces hs

theorem length_of_dropDigits {s r : List Char} (h : dropDigits s = some r) :
    r.length ≤ s.length := by
  unfold dropDigits at h
  split at h
  · cases h
    exact (List.dropWhile_suffix _).length_le
  · cases h

theorem length_of_dropFraction {s r : List Char} (h : dropFraction s = some r) :
    r.length ≤ s.length := by
  unfold dropFraction at h
  split at h
  · have := length_of_dropDigits h
    simp only [List.length_cons]
    omega
  · cases h
    exact Nat.le_refl _

theorem length_of_dropExponent {s r : List Char} (h : dropExponent s = some r) :
    r.length ≤ s.length := by
  unfold dropExponent at h
  split at h
  all_goals first
    | (have k := length_of_dropDigits h; simp only [List.length_cons]; omega)
    | (cases h; exact Nat.le_refl _)

theorem length_of_readMagnitude {negative : Bool} {s r : List Char} {t : Token}
    (h : readMagnitude negative s = some (t, r)) : r.length < s.length := by
  unfold readMagnitude at h
  generalize hd : (if s.head? = some '0' then ['0'] else s.takeWhile Char.isDigit) = digits at h
  have hlen : digits.length ≤ s.length := by
    rw [← hd]
    split
    · next h0 =>
      cases s with
      | nil => cases h0
      | cons => simp
    · exact (List.takeWhile_prefix _).length_le
  simp only at h
  split at h
  · cases h
  · next hne =>
    have hpos : 0 < digits.length := List.length_pos_iff.mpr hne
    simp only [Option.bind_eq_bind, Option.bind_eq_some_iff] at h
    obtain ⟨r₁, h₁, r₂, h₂, h⟩ := h
    have k₁ := length_of_dropFraction h₁
    have k₂ := length_of_dropExponent h₂
    have k₃ : r = r₂ := by
      split at h <;> exact (Prod.mk.inj (Option.some.inj h)).2.symm
    simp only [List.length_drop] at k₁
    subst k₃
    omega

theorem length_of_dropText {cs s r : List Char} (h : dropText cs s = some r) :
    r.length ≤ s.length := by
  fun_induction dropText cs s with
  | case1 s => cases h; exact Nat.le_refl _
  | case2 cs c s ih => have := ih h; simp only [List.length_cons]; omega
  | case3 => cases h
  | case4 => cases h

/-- Reading a token leaves no more than what follows its first character. -/
theorem length_of_read {c : Char} {s r : List Char} {t : Token}
    (h : read c s = some (t, r)) : r.length ≤ s.length := by
  unfold read at h
  split at h
  all_goals first
    | (obtain ⟨_, rfl⟩ := Prod.mk.inj (Option.some.inj h); exact Nat.le_refl _)
    | exact Nat.le_of_lt (length_of_readString h)
    | exact Nat.le_of_lt (length_of_readMagnitude h)
    | (obtain ⟨r', hr, h⟩ := Option.map_eq_some_iff.mp h
       obtain ⟨_, rfl⟩ := Prod.mk.inj h
       exact length_of_dropText hr)
    | (have k := length_of_readMagnitude h; simp only [List.length_cons] at k; omega)

end Token

/-- The tokens of a text. -/
def tokens? (s : List Char) : Option (List Token) :=
  match s with
  | []     => some []
  | c :: s =>
    if Token.isBlank c then tokens? s
    else match h : Token.read c s with
      | none           => none
      | some (t, rest) =>
        have := Token.length_of_read h
        (tokens? rest).map (t :: ·)
termination_by s.length

end DeviceAttest.Json
