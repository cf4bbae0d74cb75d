import DeviceAttest.Alias
import Mathlib.Data.List.Basic
import Std.Data.String.ToNat

/-!
# Aliases are told apart

An alias is read back by splitting its text at the last two dashes (`KeyAlias.parts?_text`): the
digits of the number and the label of the process have no dash, so both are found from the end,
whatever the base.  So the text determines the base, the process and the number
(`KeyAlias.text_injective`).
-/

namespace DeviceAttest

/-! ### Splitting at the last dash -/

/-- What stands before and behind the last dash, if there is a dash. -/
def splitAtLastDash : List Char → Option (List Char × List Char)
  | []        => none
  | c :: rest =>
    match splitAtLastDash rest with
    | some (front, back) => some (c :: front, back)
    | none               => if c = '-' then some ([], rest) else none

theorem splitAtLastDash_of_not_mem {s : List Char} (h : '-' ∉ s) : splitAtLastDash s = none := by
  induction s with
  | nil => rfl
  | cons c rest ih =>
    obtain ⟨hc, hrest⟩ := List.ne_and_not_mem_of_not_mem_cons h
    simp [splitAtLastDash, ih hrest, hc.symm]

/-- The last dash is the one that none follows. -/
theorem splitAtLastDash_append {back : List Char} (h : '-' ∉ back) (front : List Char) :
    splitAtLastDash (front ++ '-' :: back) = some (front, back) := by
  induction front with
  | nil => simp [splitAtLastDash, splitAtLastDash_of_not_mem h]
  | cons c front ih => simp [splitAtLastDash, ih]

/-- The digits of a number have no dash. -/
theorem dash_not_mem_repr (n : Nat) : '-' ∉ (Nat.repr n).toList := by
  rw [← Nat.toString_eq_repr]
  exact (ProcessLabel.ofNat n).dash_not_mem

namespace KeyAlias

/-! ### The text of an alias -/

/-- The characters of an alias: those of its parts, joined by dashes. -/
theorem toList_text (a : KeyAlias) :
    a.text.toList =
      (a.base.toList ++ '-' :: a.process.text.toList) ++
        '-' :: (Nat.repr a.number.toNat).toList := by
  simp [KeyAlias.text, String.toList_append, ToString.toString]

/-- What the last two dashes of a text leave of it: the texts of the base, of the process and of
the number of an alias. -/
def parts? (text : String) : Option (String × String × String) := do
  let (front, number) ← splitAtLastDash text.toList
  let (base, process) ← splitAtLastDash front
  return (String.ofList base, String.ofList process, String.ofList number)

/-- **An alias is split at its last two dashes** into its base, its process and its number. -/
theorem parts?_text (a : KeyAlias) :
    parts? a.text = some (a.base, a.process.text, Nat.repr a.number.toNat) := by
  have hnumber := splitAtLastDash_append (dash_not_mem_repr a.number.toNat)
    (a.base.toList ++ '-' :: a.process.text.toList)
  have hprocess := splitAtLastDash_append a.process.dash_not_mem a.base.toList
  rw [← toList_text] at hnumber
  simp only [parts?, hnumber, hprocess, Option.bind_eq_bind, Option.bind_some,
    String.ofList_toList, Option.pure_def]

/-- **The text of an alias determines its parts.** -/
theorem text_injective : Function.Injective text := by
  intro a b h
  have hparts := (parts?_text a).symm.trans ((congrArg parts? h).trans (parts?_text b))
  obtain ⟨base, ⟨label, hlabel⟩, number⟩ := a
  obtain ⟨base', ⟨label', hlabel'⟩, number'⟩ := b
  obtain ⟨rfl, rfl, hnumber⟩ : base = base' ∧ label = label' ∧
      Nat.repr number.toNat = Nat.repr number'.toNat := by
    simpa using hparts
  obtain rfl : number = number' := UInt64.toNat_inj.mp (Nat.repr_injective hnumber)
  rfl

end KeyAlias

end DeviceAttest
