import DeviceAttest.Chain.Certificate
import Mathlib.Data.List.Basic

/-!
# Streams are split without loss

Nothing is asked of a reader but what every `CertificateReader` has: on success it leaves a proper
suffix of its input.  `Consecutive certs s rest` says that certificates are read one after another
off the front of a byte string, each where the one before it ends, and leave the rest.  The octets
of consecutive certificates and the rest are the byte string (`Consecutive.flatMap_der`).

A stream is decoded exactly if consecutive certificates leave nothing of it (`decode_eq_ok_iff`),
and a failure is that of the reader where the first consecutive certificates end
(`decode_eq_parse_error_iff`).  `checkedDecode` is the same loop written with differences and
slices that may be undefined, and with a bound on its turns; none of them is ever exceeded
(`checkedDecode_eq`).  `decode_stream` has it all.
-/

namespace DeviceAttest.CertificateReader

variable {reader : CertificateReader}

/-! ### Consecutive certificates -/

/-- Certificates read one after another off the front of a byte string, and what they leave. -/
inductive Consecutive (reader : CertificateReader) : List Certificate → Bytes → Bytes → Prop where
  | nil (rest : Bytes) : Consecutive reader [] rest rest
  | cons {der s rest : Bytes} {fields : CertificateFields} {certs : List Certificate}
      (hread : reader.read (der ++ s) = .ok (fields, s)) (h : Consecutive reader certs s rest) :
      Consecutive reader (⟨der, fields⟩ :: certs) (der ++ s) rest

namespace Consecutive

variable {certs : List Certificate} {s rest : Bytes}

/-- The octets of the certificates and the rest make the byte string. -/
theorem flatMap_der (h : Consecutive reader certs s rest) :
    certs.flatMap Certificate.der ++ rest = s := by
  induction h with
  | nil rest => rfl
  | cons hread h ih => rw [List.flatMap_cons, List.append_assoc, ih]

/-- Nothing leaves no rest. -/
theorem ne_nil (h : Consecutive reader certs s rest) (hrest : rest ≠ []) : s ≠ [] := by
  rintro rfl
  exact hrest (List.append_eq_nil_iff.mp h.flatMap_der).2

/-- No certificate is read off nothing. -/
theorem der_ne_nil (h : Consecutive reader certs s rest) : ∀ c ∈ certs, c.der ≠ [] := by
  induction h with
  | nil rest => exact fun _ hc => absurd hc List.not_mem_nil
  | @cons der s rest fields certs hread h ih =>
    intro c hc
    rcases List.mem_cons.mp hc with rfl | hc
    · rintro (rfl : der = [])
      exact absurd (reader.suffix_of_read hread).1 (Nat.lt_irrefl _)
    · exact ih c hc

/-- Every certificate is read where those before it end. -/
theorem read_drop {c : Certificate} {before after : List Certificate}
    (h : Consecutive reader (before ++ c :: after) s rest) :
    ∃ s', s.drop (before.flatMap Certificate.der).length = c.der ++ s' ∧
      reader.read (c.der ++ s') = .ok (c.fields, s') := by
  generalize hcerts : before ++ c :: after = certs at h
  induction h generalizing before with
  | nil _ => cases before <;> cases hcerts
  | @cons der s rest fields certs hread h ih =>
    cases before with
    | nil =>
      obtain ⟨rfl, rfl⟩ := List.cons.inj hcerts
      exact ⟨s, rfl, hread⟩
    | cons first before =>
      obtain ⟨rfl, hlater⟩ := List.cons.inj hcerts
      obtain ⟨s', hdrop, hread'⟩ := ih hlater
      refine ⟨s', ?_, hread'⟩
      rw [← hdrop, List.flatMap_cons, List.length_append, ← List.drop_drop, List.drop_left]

end Consecutive

/-! ### One turn of the decoder -/

theorem split_nil (offset : Nat) : reader.split offset [] = .ok [] := by
  rw [split, if_pos rfl]

theorem split_of_read_error {s : Bytes} {reason : String} (hs : s ≠ [])
    (h : reader.read s = .error reason) (offset : Nat) :
    reader.split offset s = .error (.parse offset reason) := by
  rw [split, if_neg hs]
  split
  · next reason' h' => rw [Except.error.inj (h.symm.trans h')]
  · next h' => cases h.symm.trans h'

theorem split_of_read_ok {der s : Bytes} {fields : CertificateFields}
    (h : reader.read (der ++ s) = .ok (fields, s)) (offset : Nat) :
    reader.split offset (der ++ s) =
      (reader.split (offset + der.length) s).map (⟨der, fields⟩ :: ·) := by
  have hne : der ++ s ≠ [] := by
    intro hnil
    have hlt := (reader.suffix_of_read h).1
    rw [hnil] at hlt
    cases hlt
  rw [split, if_neg hne]
  split
  · next h' => cases h.symm.trans h'
  · next fields' s' h' =>
    obtain ⟨rfl, rfl⟩ := Prod.mk.inj (Except.ok.inj (h.symm.trans h'))
    simp only [List.length_append, Nat.add_sub_cancel, List.take_left]
    cases reader.split (offset + der.length) s <;> rfl

/-- What is read stands at the front of the byte string. -/
theorem exists_der {s rest : Bytes} {fields : CertificateFields}
    (h : reader.read s = .ok (fields, rest)) : ∃ der, s = der ++ rest := by
  obtain ⟨der, hder⟩ := (reader.suffix_of_read h).2
  exact ⟨der, hder.symm⟩

/-- **What a byte string is split into**: consecutive certificates that leave nothing, or else those
before the failure of the reader. -/
theorem split_spec (reader : CertificateReader) (offset : Nat) (s : Bytes) :
    (∃ certs, reader.split offset s = .ok certs ∧ reader.Consecutive certs s []) ∨
      ∃ certs rest reason,
        reader.split offset s =
            .error (.parse (offset + (certs.flatMap Certificate.der).length) reason) ∧
          reader.Consecutive certs s rest ∧ rest ≠ [] ∧ reader.read rest = .error reason := by
  induction offset, s using split.induct reader with
  | case1 offset => exact .inl ⟨[], split_nil offset, .nil []⟩
  | case2 offset s hs reason h =>
    exact .inr ⟨[], s, reason, split_of_read_error hs h offset, .nil s, hs, h⟩
  | case3 offset s hs fields rest h this consumed ih =>
    obtain ⟨der, rfl⟩ := exists_der h
    have hconsumed : consumed = der.length := by simp [consumed]
    rw [hconsumed] at ih
    rw [split_of_read_ok h]
    rcases ih with ⟨certs, hsplit, hcerts⟩ | ⟨certs, rest', reason, hsplit, hcerts, hne, hread⟩
    · exact .inl ⟨⟨der, fields⟩ :: certs, by rw [hsplit]; rfl, .cons h hcerts⟩
    · refine .inr ⟨⟨der, fields⟩ :: certs, rest', reason, ?_, .cons h hcerts, hne, hread⟩
      rw [hsplit, List.flatMap_cons, List.length_append, Nat.add_assoc]
      rfl

/-- Consecutive certificates come first, and then those of what they leave. -/
theorem Consecutive.split_eq {certs : List Certificate} {s rest : Bytes}
    (h : Consecutive reader certs s rest) (offset : Nat) :
    reader.split offset s =
      (reader.split (offset + (certs.flatMap Certificate.der).length) rest).map (certs ++ ·) := by
  induction h generalizing offset with
  | nil rest =>
    show _ = (reader.split offset rest).map id
    cases reader.split offset rest <;> rfl
  | @cons der s rest fields certs hread _ ih =>
    rw [split_of_read_ok hread, ih, List.flatMap_cons, List.length_append, ← Nat.add_assoc]
    cases reader.split (offset + der.length + (certs.flatMap Certificate.der).length) rest <;> rfl

/-! ### The decoder -/

section

variable {stream : Bytes}

theorem decode_of_ne_nil (h : stream ≠ []) : reader.decode stream = reader.split 0 stream :=
  if_neg h

/-- **A stream is decoded** exactly if it is consecutive certificates and nothing else. -/
theorem decode_eq_ok_iff {certs : List Certificate} :
    reader.decode stream = .ok certs ↔
      stream ≠ [] ∧ Consecutive reader certs stream [] := by
  constructor
  · intro h
    have hne : stream ≠ [] := by
      rintro rfl
      cases h
    rw [decode_of_ne_nil hne] at h
    rcases split_spec reader 0 stream with ⟨certs', hsplit, hcerts⟩ | ⟨_, _, _, hsplit, -⟩
    · obtain rfl := Except.ok.inj (h.symm.trans hsplit)
      exact ⟨hne, hcerts⟩
    · cases h.symm.trans hsplit
  · rintro ⟨hne, hcerts⟩
    rw [decode_of_ne_nil hne, hcerts.split_eq, split_nil]
    simp [Except.map]

theorem decode_eq_empty_iff : reader.decode stream = .error .empty ↔ stream = [] := by
  constructor
  · intro h
    by_contra hne
    rw [decode_of_ne_nil hne] at h
    rcases split_spec reader 0 stream with ⟨_, hsplit, -⟩ | ⟨_, _, _, hsplit, -⟩ <;>
      cases h.symm.trans hsplit
  · rintro rfl
    rfl

/-- **A failure to decode** is that of the reader where the certificates before it end. -/
theorem decode_eq_parse_error_iff {offset : Nat} {reason : String} :
    reader.decode stream = .error (.parse offset reason) ↔
      ∃ certs rest, Consecutive reader certs stream rest ∧ rest ≠ [] ∧
        reader.read rest = .error reason ∧ offset = (certs.flatMap Certificate.der).length := by
  constructor
  · intro h
    have hne : stream ≠ [] := by
      rintro rfl
      cases h
    rw [decode_of_ne_nil hne] at h
    rcases split_spec reader 0 stream with
      ⟨_, hsplit, -⟩ | ⟨certs, rest, reason', hsplit, hcerts, hrest, hread⟩
    · cases h.symm.trans hsplit
    · cases h.symm.trans hsplit
      exact ⟨certs, rest, hcerts, hrest, hread, Nat.zero_add _⟩
  · rintro ⟨certs, rest, hcerts, hrest, hread, rfl⟩
    rw [decode_of_ne_nil (hcerts.ne_nil hrest), hcerts.split_eq, split_of_read_error hrest hread,
      Nat.zero_add]
    rfl

/-- Octets that consecutive certificates leave and that are no certificates themselves are not
decoded. -/
theorem decode_trailing {certs : List Certificate} {rest : Bytes}
    (h : Consecutive reader certs stream rest) (hrest : rest ≠ [])
    (hlater : ∀ later, ¬ Consecutive reader later rest []) :
    ∃ offset reason, reader.decode stream = .error (.parse offset reason) ∧
      stream.length - rest.length ≤ offset := by
  rcases split_spec reader (certs.flatMap Certificate.der).length rest with
    ⟨later, -, hcerts⟩ | ⟨later, rest', reason, hsplit, -⟩
  · exact absurd hcerts (hlater later)
  · refine ⟨_, reason, ?_, Nat.le_add_right _ (later.flatMap Certificate.der).length⟩
    have hlength := congrArg List.length h.flatMap_der
    rw [List.length_append] at hlength
    rw [decode_of_ne_nil (h.ne_nil hrest), h.split_eq, Nat.zero_add, hsplit, ← hlength,
      Nat.add_sub_cancel]
    rfl

end

/-! ### Differences and slices that are never undefined -/

/-- A difference of lengths, if it is not negative. -/
def difference? (whole part : Nat) : Option Nat :=
  if part ≤ whole then some (whole - part) else none

/-- The octets before an index, if it is not past the end. -/
def slice? (s : Bytes) (index : Nat) : Option Bytes :=
  if index ≤ s.length then some (s.take index) else none

/-- The loop over what is left of a stream, with the certificates read so far.  It is undefined if
a difference or a slice is, or if it takes more turns than given. -/
def checkedLoop (reader : CertificateReader) (stream : Bytes) :
    Nat → List Certificate → Bytes → Option (Except DecodeError (List Certificate))
  | 0,         certificates, rest => if rest = [] then some (.ok certificates) else none
  | turns + 1, certificates, rest =>
    if rest = [] then some (.ok certificates)
    else do
      let offset ← difference? stream.length rest.length
      match reader.read rest with
      | .error reason            => some (.error (.parse offset reason))
      | .ok (fields, remaining)  =>
        let consumed ← difference? rest.length remaining.length
        let der ← slice? rest consumed
        checkedLoop reader stream turns (certificates ++ [⟨der, fields⟩]) remaining

/-- The certificates of a stream, in no more turns than it has octets. -/
def checkedDecode (reader : CertificateReader) (stream : Bytes) :
    Option (Except DecodeError (List Certificate)) :=
  if stream = [] then some (.error .empty) else checkedLoop reader stream stream.length [] stream

theorem difference?_of_le {whole part : Nat} (h : part ≤ whole) :
    difference? whole part = some (whole - part) := if_pos h

theorem slice?_append (s t : Bytes) : slice? (s ++ t) s.length = some s := by
  rw [slice?, if_pos (by simp), List.take_left]

/-- The loop splits what is left, at the offset where that stands in the stream. -/
theorem checkedLoop_eq {stream : Bytes} {turns : Nat} {s : Bytes} (certs : List Certificate)
    (hstream : s.length ≤ stream.length) (hturns : s.length ≤ turns) :
    checkedLoop reader stream turns certs s =
      some ((reader.split (stream.length - s.length) s).map (certs ++ ·)) := by
  induction turns generalizing certs s with
  | zero =>
    obtain rfl := List.length_eq_zero_iff.mp (Nat.le_zero.mp hturns)
    simp [checkedLoop, split_nil, Except.map]
  | succ turns ih =>
    by_cases hs : s = []
    · subst hs
      simp [checkedLoop, split_nil, Except.map]
    rw [checkedLoop, if_neg hs, difference?_of_le hstream, Option.bind_eq_bind, Option.bind_some]
    cases hread : reader.read s with
    | error reason => rw [split_of_read_error hs hread]; rfl
    | ok read =>
      obtain ⟨fields, remaining⟩ := read
      obtain ⟨der, rfl⟩ := exists_der hread
      have hlt := (reader.suffix_of_read hread).1
      have hconsumed : (der ++ remaining).length - remaining.length = der.length := by simp
      have hoffset : stream.length - (der ++ remaining).length + der.length =
          stream.length - remaining.length := by omega
      simp only [difference?_of_le (Nat.le_of_lt hlt), hconsumed, slice?_append,
        Option.bind_eq_bind, Option.bind_some]
      rw [ih _ (by omega) (by omega), split_of_read_ok hread, hoffset]
      cases reader.split (stream.length - remaining.length) remaining <;> simp [Except.map]

/-- **No difference or slice is ever undefined**, and the turns suffice. -/
theorem checkedDecode_eq (reader : CertificateReader) (stream : Bytes) :
    reader.checkedDecode stream = some (reader.decode stream) := by
  by_cases hne : stream = []
  · rw [checkedDecode, decode, if_pos hne, if_pos hne]
  · rw [checkedDecode, decode, if_neg hne, if_neg hne,
      checkedLoop_eq [] (Nat.le_refl _) (Nat.le_refl _), Nat.sub_self]
    cases reader.split 0 stream <;> rfl

/-- **A stream is split into certificates without loss, or fails where none begins.**  The loop
ends with every difference and slice defined.  An empty stream is told apart.  What is decoded is
one certificate at least, none of them empty; their octets are the stream, and the fields of each
are read where it begins.  A failure is that of the reader at an offset within the stream, and what
stands before the offset is consecutive certificates.  So nothing that is no certificate is ever
passed over at the end. -/
theorem decode_stream (reader : CertificateReader) (stream : Bytes) :
    reader.checkedDecode stream = some (reader.decode stream) ∧
      (reader.decode stream = .error .empty ↔ stream = []) ∧
      (∀ certs, reader.decode stream = .ok certs →
        certs ≠ [] ∧ (∀ c ∈ certs, c.der ≠ []) ∧ certs.flatMap Certificate.der = stream ∧
          ∀ before c after, certs = before ++ c :: after →
            ∃ s, stream.drop (before.flatMap Certificate.der).length = c.der ++ s ∧
              reader.read (c.der ++ s) = .ok (c.fields, s)) ∧
      (∀ offset reason, reader.decode stream = .error (.parse offset reason) →
        offset < stream.length ∧
          (∃ certs, Consecutive reader certs stream (stream.drop offset) ∧
            certs.flatMap Certificate.der = stream.take offset) ∧
          reader.read (stream.drop offset) = .error reason) ∧
      ∀ certs rest, Consecutive reader certs stream rest → rest ≠ [] →
        (∀ later, ¬ Consecutive reader later rest []) →
        ∃ offset reason, reader.decode stream = .error (.parse offset reason) ∧
          stream.length - rest.length ≤ offset := by
  refine ⟨checkedDecode_eq reader stream, decode_eq_empty_iff, fun certs h => ?_,
    fun offset reason h => ?_, fun certs rest h hrest hlater => decode_trailing h hrest hlater⟩
  · obtain ⟨hne, hcerts⟩ := decode_eq_ok_iff.mp h
    have hstream : certs.flatMap Certificate.der = stream := by
      rw [← hcerts.flatMap_der, List.append_nil]
    refine ⟨?_, hcerts.der_ne_nil, hstream, ?_⟩
    · rintro rfl
      exact hne hstream.symm
    · rintro before c after rfl
      exact hcerts.read_drop
  · obtain ⟨certs, rest, hcerts, hrest, hread, rfl⟩ := decode_eq_parse_error_iff.mp h
    obtain rfl := hcerts.flatMap_der
    refine ⟨?_, ⟨certs, ?_, List.take_left.symm⟩, ?_⟩
    · rw [List.length_append]
      exact Nat.lt_add_of_pos_right (List.length_pos_iff.mpr hrest)
    · rwa [List.drop_left]
    · rwa [List.drop_left]

end DeviceAttest.CertificateReader
