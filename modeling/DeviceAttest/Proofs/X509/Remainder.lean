import DeviceAttest.X509.Certificate

/-!
# What follows a certificate does not count

A certificate is one element, whose header tells where it ends.  Octets that are added behind it are
neither header nor content, so every reader that the header passes through leaves them where they
are (`Certificate.read_append`).
-/

namespace DeviceAttest.X509

open Der (Element)

/-! ### Headers -/

theorem readGroups_append {acc n : UInt32} {room : Nat} {s rest : Bytes}
    (h : readGroups acc room s = some (n, rest)) (t : Bytes) :
    readGroups acc room (s ++ t) = some (n, rest ++ t) := by
  fun_induction readGroups acc room s with
  | case1 acc room b s number hb =>
    obtain ⟨rfl, rfl⟩ := Prod.mk.inj (Option.some.inj h)
    rw [List.cons_append, readGroups, if_pos hb]
  | case2 acc room b s number hb ih =>
    rw [List.cons_append, readGroups, if_neg hb]
    exact ih h
  | case3 => cases h

theorem readNumber_append {first : UInt8} {n : UInt32} {s rest : Bytes}
    (h : readNumber first s = some (n, rest)) (t : Bytes) :
    readNumber first (s ++ t) = some (n, rest ++ t) := by
  unfold readNumber at h ⊢
  split at h
  next hmore =>
    rw [if_pos hmore]
    exact readGroups_append h t
  next hlow =>
    obtain ⟨rfl, rfl⟩ := Prod.mk.inj (Option.some.inj h)
    rw [if_neg hlow]

theorem readLength_append {n : Option Nat} {s rest : Bytes} (h : readLength s = some (n, rest))
    (t : Bytes) : readLength (s ++ t) = some (n, rest ++ t) := by
  cases s with
  | nil => cases h
  | cons b s =>
    simp only [readLength, List.cons_append] at h ⊢
    by_cases hshort : b < 128
    · rw [if_pos hshort] at h ⊢
      obtain ⟨rfl, rfl⟩ := Prod.mk.inj (Option.some.inj h)
      rfl
    by_cases hopen : b = 128
    · rw [if_neg hshort, if_pos hopen] at h ⊢
      obtain ⟨rfl, rfl⟩ := Prod.mk.inj (Option.some.inj h)
      rfl
    · rw [if_neg hshort, if_neg hopen] at h ⊢
      split at h
      · cases h
      next hfits =>
        obtain ⟨rfl, rfl⟩ := Prod.mk.inj (Option.some.inj h)
        -- the octets of the length were all there before
        have hcount : b.toNat - 128 ≤ s.length := by omega
        have hlong : ¬ (s ++ t).length < b.toNat - 128 := by
          rw [List.length_append]
          omega
        rw [List.take_append_of_le_length hcount, List.drop_append_of_le_length hcount]
        exact if_neg fun hbad => hfits (hbad.imp_right (Or.imp_left (absurd · hlong)))

theorem readHeader_append {header : Header} {s rest : Bytes}
    (h : readHeader s = some (header, rest)) (t : Bytes) :
    readHeader (s ++ t) = some (header, rest ++ t) := by
  cases s with
  | nil => cases h
  | cons first s =>
    simp only [readHeader, Option.bind_eq_bind, Option.bind_eq_some_iff, Prod.exists] at h
    obtain ⟨number, s₁, hnumber, length, s₂, hlength, h⟩ := h
    obtain ⟨rfl, rfl⟩ := Prod.mk.inj (Option.some.inj h)
    simp only [List.cons_append, readHeader, readNumber_append hnumber t,
      readLength_append hlength t, Option.bind_eq_bind, Option.bind_some]

/-! ### Elements -/

theorem readElement_append {e : Element} {s rest : Bytes} (h : readElement s = some (e, rest))
    (t : Bytes) : readElement (s ++ t) = some (e, rest ++ t) := by
  simp only [readElement, Option.bind_eq_bind, Option.bind_eq_some_iff, Prod.exists] at h
  obtain ⟨header, s₁, hheader, length, hlength, h⟩ := h
  split at h
  · cases h
  next hfits =>
    obtain ⟨rfl, rfl⟩ := Prod.mk.inj (Option.some.inj h)
    have hle : length ≤ s₁.length := Nat.le_of_not_lt hfits
    have hlong : ¬ (s₁ ++ t).length < length := by
      rw [List.length_append]
      omega
    simp only [readElement, readHeader_append hheader t, hlength, Option.bind_eq_bind,
      Option.bind_some, if_neg hlong, List.take_append_of_le_length hle,
      List.drop_append_of_le_length hle]

theorem readTagged_append {number : UInt32} {content s rest : Bytes}
    (h : readTagged number s = some (content, rest)) (t : Bytes) :
    readTagged number (s ++ t) = some (content, rest ++ t) := by
  simp only [readTagged, Option.bind_eq_bind, Option.bind_eq_some_iff, Prod.exists] at h
  obtain ⟨e, s₁, he, h⟩ := h
  split at h
  next hnumber =>
    obtain ⟨rfl, rfl⟩ := Prod.mk.inj (Option.some.inj h)
    simp only [readTagged, readElement_append he t, Option.bind_eq_bind, Option.bind_some,
      if_pos hnumber]
  · cases h

/-- **What follows a certificate is left**, and the certificate is read as without it. -/
theorem Certificate.read_append {c : Certificate} {s rest : Bytes}
    (h : Certificate.read s = some (c, rest)) (t : Bytes) :
    Certificate.read (s ++ t) = some (c, rest ++ t) := by
  simp only [Certificate.read, Option.bind_eq_bind, Option.bind_eq_some_iff, Prod.exists] at h
  obtain ⟨body, left, hbody, certified, body₁, hcertified, body₂, halgorithm, body₃, hbits, c',
    hc, h⟩ := h
  obtain ⟨rfl, rfl⟩ := Prod.mk.inj (Option.some.inj h)
  simp only [Certificate.read, readTagged_append hbody t, hcertified, halgorithm, hbits, hc,
    Option.bind_eq_bind, Option.bind_some]

end DeviceAttest.X509
