import DeviceAttest.Proofs.Call.Outcome

/-!
# Raw chains are joined and decoded

A raw chain of two entries or more is joined and handed to the decoder, whatever decoder that is;
a shorter one never reaches it.  The decoder may answer with any list of certificates, so these are
counted again, and what passes both counts is a `Chain`.

* `steps_decodeChain`: the decoder is asked once, for the entries joined in order, or not at all;
* `value_decodeChain_eq_ok_iff`, `value_decodeChain_eq_error_iff`: the result in terms of the
  entries and of the decoder's reply;
* `decodeChain_congr`: only the joined entries count;
* `decodeChain_joined` has it all.
-/

namespace DeviceAttest

open Program

/-! ### What is wrong with a raw chain -/

/-- A raw chain that the decoder answers in some way has a fault, which is worded so: one count or
the other falls short of two, or the decoder fails. -/
inductive RawChainFault (entries : List Bytes) :
    Except Fault (Except DecodeError (List Certificate)) → ChainFault → String → Prop where
  | short {reply : Except Fault (Except DecodeError (List Certificate))}
      (h : entries.length < 2) :
      RawChainFault entries reply (.tooFewEntries entries.length)
        ("Attestation certificate chain contained " ++ toString entries.length ++
          " entries. At least two are required.")
  | undecodable (h : 2 ≤ entries.length) (cause : DecodeError) :
      RawChainFault entries (.ok (.error cause)) (.undecodable cause)
        ("Unable to construct certificate chain: " ++ cause.message)
  | few (h : 2 ≤ entries.length) {certificates : List Certificate}
      (hfew : certificates.length < 2) :
      RawChainFault entries (.ok (.ok certificates)) (.tooFewCertificates certificates.length)
        ("decoded chain contained " ++ toString certificates.length ++
          " certificates; at least 2 are required")

theorem RawChainFault.message_eq {entries : List Bytes}
    {reply : Except Fault (Except DecodeError (List Certificate))} {fault : ChainFault}
    {text : String} (h : RawChainFault entries reply fault text) : fault.message = text := by
  cases h with
  | short h => rfl
  | undecodable h cause => rfl
  | few h hfew =>
    have htwo : " certificates; at least " ++ toString ChainFault.minLength ++ " are required" =
        " certificates; at least 2 are required" := by decide
    rw [← htwo, ← String.append_assoc, ← String.append_assoc]
    rfl

namespace Attest

/-- The reply of a decoder fails if it breaks off, refuses, or has too few certificates. -/
theorem ofDecoder_eq_error_iff {reply : Except Fault (Except DecodeError (List Certificate))}
    {failure : Failure} :
    ofDecoder reply = .error failure ↔
      (∃ fault, reply = .error fault ∧ failure = .fault fault.text) ∨
        (∃ cause, reply = .ok (.error cause) ∧
          failure = .error (.malformedChain (.undecodable cause))) ∨
        ∃ certificates, reply = .ok (.ok certificates) ∧ certificates.length < 2 ∧
          failure = .error (.malformedChain (.tooFewCertificates certificates.length)) := by
  constructor
  · intro h
    rcases reply with fault | cause | certificates
    · cases h
      exact .inl ⟨fault, rfl, rfl⟩
    · cases h
      exact .inr (.inl ⟨cause, rfl, rfl⟩)
    · rcases Nat.lt_or_ge certificates.length 2 with hlt | hge
      · rw [ofDecoder_of_lt hlt] at h
        cases h
        exact .inr (.inr ⟨certificates, rfl, hlt, rfl⟩)
      · rw [ofDecoder_of_le hge] at h
        cases h
  · rintro (⟨fault, rfl, rfl⟩ | ⟨cause, rfl, rfl⟩ | ⟨certificates, rfl, hlt, rfl⟩)
    · rfl
    · rfl
    · exact ofDecoder_of_lt hlt

/-! ### The program -/

/-- Too few entries are refused without a question. -/
theorem decodeChain_of_lt {entries : List Bytes} (h : entries.length < 2) :
    (decodeChain entries).run =
      .done (.error (.error (.malformedChain (.tooFewEntries entries.length)))) := by
  have hstream : chainStream entries = .error (.tooFewEntries entries.length) := if_pos h
  rw [decodeChain, hstream]
  rfl

/-- Entries that are enough are joined, and the decoder's reply decides. -/
theorem decodeChain_of_le {entries : List Bytes} (h : 2 ≤ entries.length) :
    (decodeChain entries).run =
      .ask (.decode entries.flatten) fun reply => .done (ofDecoder reply) := by
  have hstream : chainStream entries = .ok entries.flatten := if_neg (Nat.not_lt_of_le h)
  have hcounted (certificates : List Certificate) :
      (checkChain (Chain.ofCertificates certificates)).run =
        .done (ofDecoder (.ok (.ok certificates))) := by
    rw [ofDecoder]
    cases Chain.ofCertificates certificates with
    | error fault => rfl
    | ok chain => rfl
  rw [decodeChain, hstream]
  refine congrArg (Program.ask _) (funext fun reply => ?_)
  rcases reply with fault | cause | certificates
  · rfl
  · rfl
  · exact hcounted certificates

/-- How a raw chain is cut into entries does not count, as long as there are enough of them. -/
theorem decodeChain_congr {entries entries' : List Bytes} (h : 2 ≤ entries.length)
    (h' : 2 ≤ entries'.length) (hjoined : entries'.flatten = entries.flatten) :
    decodeChain entries' = decodeChain entries := by
  have hrun : (decodeChain entries').run = (decodeChain entries).run := by
    rw [decodeChain_of_le h, decodeChain_of_le h', hjoined]
  exact hrun

/-! ### Runs -/

section

variable {σ : Type} (c : Collaborators σ) (entries : List Bytes) (s : σ) (n : AliasSequence)

theorem steps_decodeChain :
    ((decodeChain entries).run.run c s n).steps =
      if 2 ≤ entries.length then
        [.call (.decode entries.flatten) (c.reply (.decode entries.flatten) s).1]
      else [] := by
  by_cases h : 2 ≤ entries.length
  · rw [if_pos h, decodeChain_of_le h]
    rfl
  · rw [if_neg h, decodeChain_of_lt (Nat.lt_of_not_le h)]
    rfl

variable {c entries s n}

/-- A chain is what the decoder gives for enough entries. -/
theorem value_decodeChain_eq_ok_iff {chain : Chain} :
    ((decodeChain entries).run.run c s n).value = .ok chain ↔
      2 ≤ entries.length ∧ (c.reply (.decode entries.flatten) s).1 = .ok (.ok chain.toList) := by
  by_cases h : 2 ≤ entries.length
  · rw [decodeChain_of_le h, and_iff_right h]
    exact ofDecoder_eq_ok_iff
  · rw [decodeChain_of_lt (Nat.lt_of_not_le h)]
    constructor
    · intro heq
      cases heq
    · rintro ⟨hle, -⟩
      exact absurd hle h

/-- An error is a fault of the raw chain; what else fails is the decoder that breaks off. -/
theorem value_decodeChain_eq_error_iff {failure : Failure} :
    ((decodeChain entries).run.run c s n).value = .error failure ↔
      (∃ fault text, RawChainFault entries (c.reply (.decode entries.flatten) s).1 fault text ∧
          failure = .error (.malformedChain fault)) ∨
        2 ≤ entries.length ∧ ∃ fault, (c.reply (.decode entries.flatten) s).1 = .error fault ∧
          failure = .fault fault.text := by
  by_cases h : 2 ≤ entries.length
  · rw [decodeChain_of_le h]
    refine ofDecoder_eq_error_iff.trans ?_
    generalize (c.reply (.decode entries.flatten) s).1 = reply
    constructor
    · rintro (⟨fault, rfl, rfl⟩ | ⟨cause, rfl, rfl⟩ | ⟨certificates, rfl, hfew, rfl⟩)
      · exact .inr ⟨h, fault, rfl, rfl⟩
      · exact .inl ⟨_, _, .undecodable h cause, rfl⟩
      · exact .inl ⟨_, _, .few h hfew, rfl⟩
    · rintro (⟨fault, text, hfault, rfl⟩ | ⟨-, fault, rfl, rfl⟩)
      · cases hfault with
        | short hshort => exact absurd h (Nat.not_le_of_lt hshort)
        | undecodable _ cause => exact .inr (.inl ⟨cause, rfl, rfl⟩)
        | few _ hfew => exact .inr (.inr ⟨_, rfl, hfew, rfl⟩)
      · exact .inl ⟨fault, rfl, rfl⟩
  · have hshort : entries.length < 2 := Nat.lt_of_not_le h
    rw [decodeChain_of_lt hshort]
    generalize (c.reply (.decode entries.flatten) s).1 = reply
    constructor
    · intro heq
      obtain rfl := Except.error.inj heq
      exact .inl ⟨_, _, .short hshort, rfl⟩
    · rintro (⟨fault, text, hfault, rfl⟩ | ⟨hle, -⟩)
      · cases hfault with
        | short _ => rfl
        | undecodable hle _ => exact absurd hle h
        | few hle _ => exact absurd hle h
      · exact absurd hle h

end

end Attest

/-- The leaf is the first certificate. -/
theorem Chain.exists_toList_eq (chain : Chain) : ∃ later, chain.toList = chain.leaf :: later := by
  obtain ⟨certificates, h⟩ := chain
  cases certificates with
  | nil => cases h
  | cons leaf later => exact ⟨later, rfl⟩

/-- **A raw chain is joined and decoded**, whatever the decoder.  With two entries or more the
decoder is asked once, for the entries joined in order, and otherwise nothing is asked.  There is a
chain exactly if both counts reach two.  Every error is a malformed chain, worded by the number of
entries, by the decoder's failure, or by the number of certificates; only a decoder that breaks off
ends otherwise.  A chain is what the decoder gave, unchanged, and its leaf comes first.  Raw chains
that are joined to the same are treated the same. -/
theorem decodeChain_joined {σ : Type} (c : Collaborators σ) (entries : List Bytes) (s : σ)
    (n : AliasSequence) :
    let run := (Attest.decodeChain entries).run.run c s n
    let reply := (c.reply (.decode entries.flatten) s).1
    run.steps = (if 2 ≤ entries.length then [.call (.decode entries.flatten) reply] else []) ∧
      ((∃ chain, run.value = .ok chain) ↔
        2 ≤ entries.length ∧ ∃ certificates, reply = .ok (.ok certificates) ∧
          2 ≤ certificates.length) ∧
      (∀ cause, run.value = .error (.error cause) ↔
        ∃ fault text, RawChainFault entries reply fault text ∧ cause = .malformedChain fault) ∧
      (∀ fault text, RawChainFault entries reply fault text →
        (AttestationError.malformedChain fault).message =
          "Malformed attestation chain: " ++ text) ∧
      (∀ text, run.value = .error (.fault text) ↔ 2 ≤ entries.length ∧ reply = .error ⟨text⟩) ∧
      (∀ chain, run.value = .ok chain →
        reply = .ok (.ok chain.toList) ∧ 2 ≤ chain.length ∧
          ∃ later, chain.toList = chain.leaf :: later) ∧
      ∀ entries', 2 ≤ entries.length → 2 ≤ entries'.length →
        entries'.flatten = entries.flatten →
          Attest.decodeChain entries' = Attest.decodeChain entries := by
  intro run reply
  have hchain (chain : Chain) :
      run.value = .ok chain ↔ 2 ≤ entries.length ∧ reply = .ok (.ok chain.toList) :=
    Attest.value_decodeChain_eq_ok_iff
  have hfailure (failure : Failure) :
      run.value = .error failure ↔
        (∃ fault text, RawChainFault entries reply fault text ∧
            failure = .error (.malformedChain fault)) ∨
          2 ≤ entries.length ∧ ∃ fault, reply = .error fault ∧ failure = .fault fault.text :=
    Attest.value_decodeChain_eq_error_iff
  refine ⟨Attest.steps_decodeChain c entries s n, ?_, fun cause => ?_, fun fault text h => ?_,
    fun text => ?_, fun chain h => ?_, fun entries' h h' => Attest.decodeChain_congr h h'⟩
  · constructor
    · rintro ⟨chain, h⟩
      obtain ⟨henough, hreply⟩ := (hchain chain).mp h
      exact ⟨henough, chain.toList, hreply, chain.two_le_length⟩
    · rintro ⟨henough, certificates, hreply, htwo⟩
      exact ⟨⟨certificates, htwo⟩, (hchain _).mpr ⟨henough, hreply⟩⟩
  · rw [hfailure]
    constructor
    · rintro (⟨fault, text, hfault, heq⟩ | ⟨-, fault, -, heq⟩)
      · exact ⟨fault, text, hfault, Failure.error.inj heq⟩
      · cases heq
    · rintro ⟨fault, text, hfault, rfl⟩
      exact .inl ⟨fault, text, hfault, rfl⟩
  · rw [← h.message_eq]
    rfl
  · rw [hfailure]
    constructor
    · rintro (⟨fault, _, -, heq⟩ | ⟨henough, fault, hreply, heq⟩)
      · cases heq
      · obtain rfl := Failure.fault.inj heq
        exact ⟨henough, hreply⟩
    · rintro ⟨henough, hreply⟩
      exact .inr ⟨henough, ⟨text⟩, hreply, rfl⟩
  · exact ⟨((hchain chain).mp h).2, chain.two_le_length, chain.exists_toList_eq⟩

end DeviceAttest
