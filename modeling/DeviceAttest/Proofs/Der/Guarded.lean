import DeviceAttest.Proofs.Der.Signed
import DeviceAttest.Proofs.Der.Spelling

/-!
# Elements are read within range

`Element.guardedRead` reads one element by an index into the byte string, as a machine does whose
words are numbers below a limit.  It is undefined as soon as a step leaves its range: an octet or a
slice past the end, a difference below zero, or a sum or an accumulated length that reaches the
limit.

Where byte strings take less than half of the words, and words hold 32 bits at least, no step does,
and what is read is what `Element.read` reads (`guardedRead_eq`).  An index and what is left behind
it are kept together by `Follows`.

What is read stands in the byte string behind a header of two octets or more
(`exists_header_of_read`).
-/

namespace DeviceAttest

/-! ### Readings that may be undefined -/

/-- A reading whose steps may leave their range; then it is undefined. -/
abbrev Guarded (ε α : Type) : Type := ExceptT ε Option α

namespace Guarded

variable {ε α β : Type}

/-- A reading of which every step stays in its range. -/
def whole (r : Except ε α) : Guarded ε α := ExceptT.mk (some r)

/-- Goes on where a range is kept, and is undefined where it is not. -/
def within (p : Prop) [Decidable p] (x : p → Guarded ε α) : Guarded ε α :=
  if h : p then x h else ExceptT.mk none

/-- The octet at an index. -/
def octetAt (s : Bytes) (index : Nat) : Guarded ε UInt8 :=
  within (index < s.length) fun h => pure s[index]

/-- The octets from one index up to another. -/
def slice (s : Bytes) (start stop : Nat) : Guarded ε Bytes :=
  within (start ≤ stop ∧ stop ≤ s.length) fun _ => pure ((s.take stop).drop start)

/-- The difference of two lengths. -/
def difference (a b : Nat) : Guarded ε Nat := within (b ≤ a) fun _ => pure (a - b)

theorem within_of {p : Prop} [Decidable p] (h : p) (x : p → Guarded ε α) : within p x = x h :=
  dif_pos h

theorem pure_bind_eq (a : α) (f : α → Guarded ε β) : (pure a >>= f) = f a := rfl

/-- What goes on in range after each value is in range. -/
theorem whole_bind {r : Except ε α} {f : α → Guarded ε β} {g : α → Except ε β}
    (h : ∀ a, r = .ok a → f a = whole (g a)) : (whole r >>= f) = whole (r >>= g) := by
  cases r with
  | error e => rfl
  | ok a => exact h a rfl

theorem octetAt_bind {s : Bytes} {index : Nat} (h : index < s.length) (f : UInt8 → Guarded ε α) :
    (octetAt s index >>= f) = f s[index] := by
  rw [octetAt, within_of h, pure_bind_eq]

theorem slice_bind {s : Bytes} {start stop : Nat} (hle : start ≤ stop) (hs : stop ≤ s.length)
    (f : Bytes → Guarded ε α) : (slice s start stop >>= f) = f ((s.take stop).drop start) := by
  rw [slice, within_of ⟨hle, hs⟩, pure_bind_eq]

theorem difference_bind {a b : Nat} (h : b ≤ a) (f : Nat → Guarded ε α) :
    (difference a b >>= f) = f (a - b) := by
  rw [difference, within_of h, pure_bind_eq]

/-- A reading that goes by an index into a byte string, beside one that goes by what is left. -/
inductive Follows (s : Bytes) : Guarded ε (α × Nat) → Except ε (α × Bytes) → Prop where
  | error (e : ε) : Follows s (whole (.error e)) (.error e)
  | ok (a : α) {index : Nat} (h : index ≤ s.length) :
      Follows s (whole (.ok (a, index))) (.ok (a, s.drop index))

/-- What follows is in range if it is so behind each index. -/
theorem Follows.bind {s : Bytes} {x : Guarded ε (α × Nat)} {y : Except ε (α × Bytes)}
    (h : Follows s x y) {f : α × Nat → Guarded ε β} {g : α × Bytes → Except ε β}
    (hfg : ∀ a index, index ≤ s.length → f (a, index) = whole (g (a, s.drop index))) :
    (x >>= f) = whole (y >>= g) := by
  cases h with
  | error e => rfl
  | ok a hindex => exact hfg a _ hindex

end Guarded

namespace Der.Element

open Guarded

/-! ### Reading by index -/

section

variable (limit : Nat) (s : Bytes)

/-- Reads base-128 digits from an index up to the first unmarked one. -/
def guardedGroups (acc : UInt32) (index : Nat) : Guarded ReadError (UInt32 × Nat) :=
  if h : s.length ≤ index then throw .truncatedNumber
  else do
    let b ← octetAt s index
    within (index + 1 < limit) fun _ =>
      let number := acc * 128 + (b % 128).toUInt32
      if b < 128 then pure (number, index + 1) else guardedGroups number (index + 1)
termination_by s.length - index

/-- Reads the rest of a tag number whose first identifier octet is `first`. -/
def guardedNumber (first : UInt8) : Guarded ReadError (UInt32 × Nat) :=
  if first % 32 = 31 then guardedGroups limit s 0 1 else pure ((first % 32).toUInt32, 1)

/-- Accumulates the octets of a long length. -/
def guardedValue (acc : Nat) : Bytes → Guarded ReadError Nat
  | []        => pure acc
  | b :: size => within (acc * 256 + b.toNat < limit) fun _ =>
    guardedValue (acc * 256 + b.toNat) size

/-- Reads a length at an index.  The sum of the index and the count of a long length is formed for
counts up to four only. -/
def guardedLength (index : Nat) : Guarded ReadError (Nat × Nat) :=
  if s.length ≤ index then throw .truncatedLength
  else do
    let b ← octetAt s index
    within (index + 1 < limit) fun _ =>
      if b < 128 then pure (b.toNat, index + 1)
      else
        let count := b.toNat - 128
        if count = 0 ∨ 4 < count then throw .badLength
        else within (index + 1 + count < limit) fun _ =>
          if s.length < index + 1 + count then throw .badLength
          else do
            let size ← slice s (index + 1) (index + 1 + count)
            let length ← guardedValue limit 0 size
            pure (length, index + 1 + count)

/-- Takes one element off the front of a byte string, by indices into it. -/
def guardedRead : Guarded ReadError (Element × Bytes) :=
  if s.length < 2 then throw .truncatedHeader
  else do
    let first ← octetAt s 0
    let (number, index) ← guardedNumber limit s first
    let (length, index) ← guardedLength limit s index
    let left ← difference s.length index
    if left < length then throw .truncatedContent
    else within (index + length < limit) fun _ => do
      let rest ← slice s (index + length) s.length
      let content ← slice s index (index + length)
      pure (⟨TagClass.ofOctet first, first &&& 0x20 ≠ 0, number, content⟩, rest)

end

/-! ### No step leaves its range -/

section

variable {limit : Nat} {s : Bytes}

/-- Some octets are left where an index has not reached the end. -/
theorem drop_eq_cons {index : Nat} (h : ¬ s.length ≤ index) :
    s.drop index = s[index] :: s.drop (index + 1) :=
  List.drop_eq_getElem_cons (Nat.lt_of_not_le h)

theorem follows_guardedGroups (hs : s.length < limit) (acc : UInt32) (index : Nat) :
    Follows s (guardedGroups limit s acc index) (readGroups acc (s.drop index)) := by
  fun_induction guardedGroups limit s acc index with
  | case1 acc index h =>
    rw [List.drop_eq_nil_of_le h, readGroups]
    exact .error _
  | case2 acc index h ih =>
    have hlt : index < s.length := Nat.lt_of_not_le h
    have hnext : index + 1 < limit := Nat.lt_of_le_of_lt hlt hs
    rw [octetAt_bind hlt, within_of hnext, drop_eq_cons h, readGroups]
    by_cases hb : s[index] < 128
    · simp only [if_pos hb]
      exact .ok _ hlt
    · simp only [if_neg hb]
      exact ih s[index]

theorem follows_guardedNumber (hs : s.length < limit) (hne : 1 ≤ s.length) (first : UInt8) :
    Follows s (guardedNumber limit s first) (readNumber first (s.drop 1)) := by
  by_cases h : first % 32 = 31
  · rw [guardedNumber, readNumber, if_pos h, if_pos h]
    exact follows_guardedGroups hs 0 1
  · rw [guardedNumber, readNumber, if_neg h, if_neg h]
    exact .ok _ hne

/-- A length whose octets have a value below the limit is accumulated below it. -/
theorem guardedValue_eq {acc : Nat} {size : Bytes} (h : Bytes.bigEndianFrom acc size < limit) :
    guardedValue limit acc size = whole (.ok (Bytes.bigEndianFrom acc size)) := by
  induction size generalizing acc with
  | nil => rfl
  | cons b size ih =>
    have hle : acc * 256 + b.toNat ≤ Bytes.bigEndianFrom (acc * 256 + b.toNat) size := by
      rw [Integer.bigEndianFrom_eq]
      exact Nat.le_add_right_of_le (Nat.le_mul_of_pos_right _ (Nat.pow_pos (by decide)))
    rw [guardedValue, within_of (Nat.lt_of_le_of_lt hle h)]
    exact ih h

theorem follows_guardedLength (hlimit : 2 ^ 32 ≤ limit) (hs : 2 * s.length < limit)
    (index : Nat) : Follows s (guardedLength limit s index) (readLength (s.drop index)) := by
  unfold guardedLength
  by_cases h : s.length ≤ index
  · rw [if_pos h, List.drop_eq_nil_of_le h, readLength]
    exact .error _
  have hlt : index < s.length := Nat.lt_of_not_le h
  rw [if_neg h, octetAt_bind hlt, within_of (by omega), drop_eq_cons h, readLength]
  by_cases hb : s[index] < 128
  · rw [if_pos hb, if_pos hb]
    exact .ok _ hlt
  rw [if_neg hb, if_neg hb]
  generalize s[index].toNat - 128 = count
  by_cases hcount : count = 0 ∨ 4 < count
  · simp only [if_pos hcount, if_pos (or_assoc.mp (.inl hcount))]
    exact .error _
  -- at most four octets follow the index, which is at most half of the limit
  have hsum : index + 1 + count < limit := by omega
  have hleft : (s.drop (index + 1)).length < count ↔ s.length < index + 1 + count := by
    rw [List.length_drop]
    omega
  simp only [if_neg hcount, within_of hsum, ← or_assoc, hleft, or_iff_right hcount]
  by_cases hshort : s.length < index + 1 + count
  · rw [if_pos hshort, if_pos hshort]
    exact .error _
  have hsize : ((s.take (index + 1 + count)).drop (index + 1)) = (s.drop (index + 1)).take count := by
    rw [List.drop_take, Nat.add_sub_cancel_left]
  have hvalue : Bytes.bigEndian ((s.drop (index + 1)).take count) < limit :=
    Nat.lt_of_lt_of_le (Bytes.bigEndian_lt_of_length_le_four (by rw [List.length_take]; omega)) hlimit
  rw [if_neg hshort, if_neg hshort, slice_bind (by omega) (by omega), hsize,
    guardedValue_eq hvalue, List.drop_drop]
  exact .ok _ (Nat.le_of_not_lt hshort)

/-- Two octets are enough for a reading to begin with the number. -/
theorem read_of_two_le (hpos : 0 < s.length) (h : 2 ≤ s.length) :
    read s = (do
      let (number, s₁) ← readNumber s[0] (s.drop 1)
      let (length, s₂) ← readLength s₁
      if s₂.length < length then .error .truncatedContent
      else .ok (⟨TagClass.ofOctet s[0], s[0] &&& 0x20 ≠ 0, number, s₂.take length⟩,
        s₂.drop length)) := by
  match s, h with
  | first :: second :: later, _ => rfl

/-- **No step of a reading leaves its range**, and so it reads what `read` reads. -/
theorem guardedRead_eq (hlimit : 2 ^ 32 ≤ limit) (hs : 2 * s.length < limit) :
    guardedRead limit s = whole (read s) := by
  unfold guardedRead
  by_cases hshort : s.length < 2
  · rw [if_pos hshort]
    match s, hshort with
    | [], _ | [_], _ => rfl
  have htwo : 2 ≤ s.length := Nat.le_of_not_lt hshort
  rw [if_neg hshort, octetAt_bind (by omega), read_of_two_le (by omega) htwo]
  refine (follows_guardedNumber (by omega) (by omega) s[0]).bind fun number index _ => ?_
  refine (follows_guardedLength hlimit hs index).bind fun length index hindex => ?_
  have hleft : (s.drop index).length = s.length - index := List.length_drop
  simp only [difference_bind hindex, hleft]
  by_cases hfits : s.length - index < length
  · rw [if_pos hfits, if_pos hfits]
    rfl
  -- the content ends within the byte string, and so do both slices
  have hend : index + length ≤ s.length := by omega
  have hsum : index + length < limit := by omega
  rw [if_neg hfits, if_neg hfits, within_of hsum, slice_bind hend (Nat.le_refl _),
    slice_bind (Nat.le_add_right _ _) hend, List.take_length, List.drop_take,
    Nat.add_sub_cancel_left, List.drop_drop]
  rfl

end

/-! ### Headers -/

/-- What is read stands behind a header of two octets or more. -/
theorem exists_header_of_read {s rest : Bytes} {e : Element} (h : read s = .ok (e, rest)) :
    ∃ header, s = header ++ e.content ++ rest ∧ 2 ≤ header.length := by
  obtain ⟨p, rfl, rfl⟩ := read_eq_ok_iff.mp h
  have hsize := p.spells_length.one_le_length
  refine ⟨p.first :: (p.digits ++ p.size), ?_, ?_⟩
  · simp [Spelling.octets, Spelling.element]
  · simp only [List.length_cons, List.length_append]
    omega

end Der.Element

end DeviceAttest
