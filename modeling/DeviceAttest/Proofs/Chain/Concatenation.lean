import DeviceAttest.Proofs.Call.Attested
import DeviceAttest.Proofs.Chain.Decoding
import DeviceAttest.Proofs.Chain.Joining
import DeviceAttest.Proofs.X509.Remainder

/-!
# Streams are decoded piece by piece

A reader is `Stable` if octets that are added behind what it takes are left and do not count; the
reader of X.509 certificates is (`x509_stable`).  Consecutive certificates of a stable reader stay
consecutive when something is added (`Consecutive.append`), and may be followed by others
(`Consecutive.trans`).  So a stream that is decoded is a piece of any stream that it begins: what
follows is decoded, or fails, as it would on its own, with its offsets moved
(`decode_append_ok`, `decode_append_error`).  Entries that are a whole certificate each are found
again in the chain that they are joined to (`decode_concatenated`).
-/

namespace DeviceAttest

namespace CertificateReader

variable {reader : CertificateReader}

/-- Octets added behind what the reader takes are left, and do not count for what is read. -/
def Stable (reader : CertificateReader) : Prop :=
  ∀ {s rest : Bytes} {fields : CertificateFields}, reader.read s = .ok (fields, rest) →
    ∀ t, reader.read (s ++ t) = .ok (fields, rest ++ t)

theorem x509_stable : x509.Stable := by
  intro s rest fields h t
  change readX509 s = _ at h
  change readX509 (s ++ t) = _
  unfold readX509 at h
  split at h
  · cases h
  · next c rest hread =>
    obtain ⟨rfl, rfl⟩ := Prod.mk.inj (Except.ok.inj h)
    rw [readX509, X509.Certificate.read_append hread t]

/-! ### Consecutive certificates -/

namespace Consecutive

variable {certs later : List Certificate} {s rest rest' : Bytes}

/-- What is added is left at the end. -/
theorem append (hstable : reader.Stable) (h : Consecutive reader certs s rest) (t : Bytes) :
    Consecutive reader certs (s ++ t) (rest ++ t) := by
  induction h with
  | nil rest => exact .nil (rest ++ t)
  | @cons der s rest fields certs hread h ih =>
    have hread' := hstable hread t
    rw [List.append_assoc] at hread' ⊢
    exact .cons hread' ih

/-- Certificates may be read off what others leave. -/
theorem trans (h : Consecutive reader certs s rest) (h' : Consecutive reader later rest rest') :
    Consecutive reader (certs ++ later) s rest' := by
  induction h with
  | nil rest => exact h'
  | cons hread h ih => exact .cons hread (ih h')

/-- A certificate is not read off nothing. -/
theorem stream_ne_nil (h : Consecutive reader certs s rest) (hcerts : certs ≠ []) : s ≠ [] := by
  cases h with
  | nil rest => exact absurd rfl hcerts
  | cons hread h =>
    intro hnil
    rw [hnil] at hread
    exact absurd (reader.suffix_of_read hread).1 (Nat.not_lt_zero _)

/-- Entries that are a certificate each are consecutive certificates once they are joined. -/
theorem of_entries (hstable : reader.Stable) {entries : List Bytes}
    (hentries : ∀ entry ∈ entries, ∃ fields, reader.read entry = .ok (fields, [])) :
    ∃ certs, Consecutive reader certs entries.flatten [] ∧ certs.map Certificate.der = entries ∧
      ∀ c ∈ certs, reader.read c.der = .ok (c.fields, []) := by
  induction entries with
  | nil => exact ⟨[], .nil [], rfl, fun _ hc => absurd hc List.not_mem_nil⟩
  | cons entry entries ih =>
    obtain ⟨⟨fields, hread⟩, hlater⟩ := List.forall_mem_cons.mp hentries
    obtain ⟨certs, hcerts, hder, hfields⟩ := ih hlater
    have hfirst : reader.read (entry ++ entries.flatten) = .ok (fields, entries.flatten) :=
      hstable hread entries.flatten
    exact ⟨⟨entry, fields⟩ :: certs, .cons hfirst hcerts, congrArg (entry :: ·) hder,
      List.forall_mem_cons.mpr ⟨hread, hfields⟩⟩

end Consecutive

/-! ### The decoder -/

section

variable {s t : Bytes} {certs : List Certificate}

/-- What follows a stream that is decoded begins where its certificates end. -/
theorem consecutive_append (hstable : reader.Stable) (h : reader.decode s = .ok certs) (t : Bytes) :
    Consecutive reader certs (s ++ t) t ∧ (certs.flatMap Certificate.der).length = s.length := by
  obtain ⟨-, hcerts⟩ := decode_eq_ok_iff.mp h
  refine ⟨hcerts.append hstable t, congrArg List.length ?_⟩
  rw [← hcerts.flatMap_der, List.append_nil]

theorem decode_append_ok (hstable : reader.Stable) (h : reader.decode s = .ok certs)
    {later : List Certificate} (hlater : reader.decode t = .ok later) :
    reader.decode (s ++ t) = .ok (certs ++ later) := by
  obtain ⟨hne, ht⟩ := decode_eq_ok_iff.mp hlater
  exact decode_eq_ok_iff.mpr ⟨List.append_ne_nil_of_right_ne_nil s hne,
    (consecutive_append hstable h t).1.trans ht⟩

theorem decode_append_error (hstable : reader.Stable) (h : reader.decode s = .ok certs)
    {offset : Nat} {reason : String} (hlater : reader.decode t = .error (.parse offset reason)) :
    reader.decode (s ++ t) = .error (.parse (s.length + offset) reason) := by
  obtain ⟨hcerts, hlength⟩ := consecutive_append hstable h t
  obtain ⟨later, rest, ht, hrest, hread, rfl⟩ := decode_eq_parse_error_iff.mp hlater
  refine decode_eq_parse_error_iff.mpr
    ⟨certs ++ later, rest, hcerts.trans ht, hrest, hread, ?_⟩
  rw [List.flatMap_append, List.length_append, hlength]

end

/-- **Streams are decoded piece by piece**, if the reader leaves what follows a certificate.  Two
streams one after the other give the certificates of the first and then those of the second, and a
failure of the second one stands as far behind the first.  So a raw chain of two entries or more,
each of which is a certificate and nothing else, gives a chain of as many certificates, which have
the entries for their octets, in order; the first entry is the leaf's. -/
theorem decode_concatenated (reader : CertificateReader) (hstable : reader.Stable) :
    (∀ s t certs, reader.decode s = .ok certs →
      (∀ later, reader.decode t = .ok later → reader.decode (s ++ t) = .ok (certs ++ later)) ∧
        ∀ offset reason, reader.decode t = .error (.parse offset reason) →
          reader.decode (s ++ t) = .error (.parse (s.length + offset) reason)) ∧
      ∀ {σ : Type} (c : Collaborators σ) (entries : List Bytes) (state : σ) (n : AliasSequence),
        2 ≤ entries.length →
        (∀ entry ∈ entries, ∃ fields, reader.read entry = .ok (fields, [])) →
        (c.reply (.decode entries.flatten) state).1 = .ok (reader.decode entries.flatten) →
        ∃ chain, ((Attest.decodeChain entries).run.run c state n).value = .ok chain ∧
          chain.length = entries.length ∧ chain.toList.map Certificate.der = entries ∧
          entries.head? = some chain.leaf.der ∧
          ∀ certificate ∈ chain.toList,
            reader.read certificate.der = .ok (certificate.fields, []) := by
  refine ⟨fun s t certs h => ⟨fun later hlater => decode_append_ok hstable h hlater,
    fun offset reason hlater => decode_append_error hstable h hlater⟩, ?_⟩
  intro σ c entries state n htwo hentries hreply
  obtain ⟨certs, hcerts, hder, hfields⟩ := Consecutive.of_entries hstable hentries
  have hcount : certs.length = entries.length := by rw [← hder, List.length_map]
  have hne : certs ≠ [] := List.ne_nil_of_length_pos (hcount ▸ Nat.lt_of_lt_of_le Nat.two_pos htwo)
  have hdecode : reader.decode entries.flatten = .ok certs :=
    decode_eq_ok_iff.mpr ⟨hcerts.stream_ne_nil hne, hcerts⟩
  let chain : Chain := ⟨certs, hcount ▸ htwo⟩
  have hvalue : ((Attest.decodeChain entries).run.run c state n).value = .ok chain :=
    Attest.value_decodeChain_eq_ok_iff.mpr ⟨htwo, hreply.trans (congrArg Except.ok hdecode)⟩
  obtain ⟨later, hleaf⟩ := chain.exists_toList_eq
  have hhead : entries.head? = some chain.leaf.der := by
    rw [← hder, show certs = chain.leaf :: later from hleaf]
    rfl
  exact ⟨chain, hvalue, hcount, hder, hhead, hfields⟩

theorem decode_concatenated_minted :
    let entries := mintChain [1, 2, 3]
    let c := (Script.new (Device.new "" ⟨"", "", "", "", ""⟩) []).collaborators
    ∃ chain, ((Attest.decodeChain entries).run.run c ⟨[], []⟩ .start).value = .ok chain ∧
      chain.length = 2 ∧ chain.toList.map Certificate.der = entries ∧
      x509.decode (entries.flatten ++ entries.flatten) = .ok (chain.toList ++ chain.toList) ∧
      x509.decode (entries.flatten ++ [0]) =
        .error (.parse (entries.flatten.length + 0) notX509) := by
  intro entries c
  obtain ⟨happend, hjoined⟩ := decode_concatenated x509 x509_stable
  have hwhole : ∀ entry ∈ entries, (readX509 entry).map Prod.snd = .ok [] := by decide +kernel
  have hentries : ∀ entry ∈ entries, ∃ fields, x509.read entry = .ok (fields, []) := by
    intro entry hentry
    have hrest := hwhole entry hentry
    change ∃ fields, readX509 entry = .ok (fields, [])
    cases hread : readX509 entry with
    | error reason =>
      rw [hread] at hrest
      cases hrest
    | ok read =>
      rw [hread] at hrest
      exact ⟨read.1, congrArg Except.ok (Prod.ext rfl (Except.ok.inj hrest))⟩
  obtain ⟨chain, hvalue, hlength, hder, -⟩ :=
    hjoined c entries ⟨[], []⟩ .start (Nat.le_refl 2) hentries rfl
  obtain ⟨-, hreply⟩ := Attest.value_decodeChain_eq_ok_iff.mp hvalue
  have hdecode : x509.decode entries.flatten = .ok chain.toList := Except.ok.inj hreply
  have hzero : x509.decode [0] = .error (.parse 0 notX509) :=
    decode_eq_parse_error_iff.mpr ⟨[], [0], .nil [0], List.cons_ne_nil _ _, rfl, rfl⟩
  exact ⟨chain, hvalue, hlength, hder, (happend _ _ _ hdecode).1 _ hdecode,
    (happend _ _ _ hdecode).2 _ _ hzero⟩

end CertificateReader

end DeviceAttest
