import DeviceAttest.Proofs.Call.Path
import Mathlib.Algebra.Group.Nat.Defs
import Mathlib.Data.List.Nodup

/-!
# Numbers are drawn once

The numbers among steps that draw from the alias sequence are consecutive modulo 2^64, so fewer
than 2^64 of them are all different (`AliasSequence.Gives.nodup`).
-/

namespace DeviceAttest

/-- The number of a step that draws one. -/
def Step.number? : Step → Option UInt64
  | .drew number => some number
  | _            => none

/-- The numbers drawn among some steps, in order. -/
def Step.numbers (steps : List Step) : List UInt64 := steps.filterMap Step.number?

theorem numbers_append (front back : List Step) :
    Step.numbers (front ++ back) = Step.numbers front ++ Step.numbers back :=
  List.filterMap_append

namespace AliasSequence

theorem after_append (n : AliasSequence) (front back : List Step) :
    n.after (front ++ back) = (n.after front).after back := by
  induction front generalizing n with
  | nil => rfl
  | cons step front ih =>
    cases step with
    | call q reply => exact ih n
    | drew number => exact ih n.advance
    | event e => exact ih n

theorem gives_append (n : AliasSequence) (front back : List Step) :
    n.Gives (front ++ back) ↔ n.Gives front ∧ (n.after front).Gives back := by
  induction front generalizing n with
  | nil => exact ⟨fun h => ⟨trivial, h⟩, And.right⟩
  | cons step front ih =>
    cases step with
    | call q reply => exact ih n
    | drew number => exact (and_congr_right' (ih n.advance)).trans and_assoc.symm
    | event e => exact ih n

/-- The numbers drawn are consecutive. -/
theorem Gives.numbers_eq {n : AliasSequence} {steps : List Step} (h : n.Gives steps) :
    Step.numbers steps =
      (List.range (Step.numbers steps).length).map fun i => n.next + UInt64.ofNat i := by
  induction steps generalizing n with
  | nil => rfl
  | cons step steps ih =>
    cases step with
    | call q reply => exact ih h
    | event e => exact ih h
    | drew number =>
      obtain ⟨rfl, hl⟩ := h
      show n.next :: Step.numbers steps =
        (List.range ((Step.numbers steps).length + 1)).map fun i => n.next + UInt64.ofNat i
      -- the numbers after the first count from the one that follows it
      have hnext (i : Nat) : n.advance.next + UInt64.ofNat i = n.next + UInt64.ofNat (i + 1) := by
        rw [UInt64.ofNat_add, UInt64.add_comm (UInt64.ofNat i)]
        exact UInt64.add_assoc _ _ _
      rw [List.range_succ_eq_map, List.map_cons, List.map_map, ih hl]
      simp [Function.comp_def, hnext]

/-- Steps that draw nothing, or the next number only, draw from the sequence. -/
theorem gives_of_numbers {n : AliasSequence} {steps : List Step}
    (h : Step.numbers steps = [] ∨ Step.numbers steps = [n.next]) : n.Gives steps := by
  induction steps generalizing n with
  | nil => trivial
  | cons step steps ih =>
    cases step with
    | call q reply => exact ih h
    | event e => exact ih h
    | drew number =>
      rcases h with h | h
      · exact absurd h (List.cons_ne_nil _ _)
      · obtain ⟨rfl, hl⟩ := List.cons.inj h
        exact ⟨rfl, ih (.inl hl)⟩

/-- The first number drawn is the next one. -/
theorem Gives.next_mem {n : AliasSequence} {steps : List Step} (h : n.Gives steps)
    (hne : Step.numbers steps ≠ []) : n.next ∈ Step.numbers steps := by
  induction steps generalizing n with
  | nil => exact absurd rfl hne
  | cons step steps ih =>
    cases step with
    | call q reply => exact ih h hne
    | event e => exact ih h hne
    | drew number =>
      obtain ⟨rfl, -⟩ := h
      exact List.mem_cons_self

/-- **No number is drawn twice** among fewer than 2^64. -/
theorem Gives.nodup {n : AliasSequence} {steps : List Step} (h : n.Gives steps)
    (hlt : (Step.numbers steps).length < 2 ^ 64) : (Step.numbers steps).Nodup := by
  rw [h.numbers_eq]
  refine List.nodup_range.map_on fun i hi j hj hij => ?_
  have hi' := List.mem_range.mp hi
  have hj' := List.mem_range.mp hj
  have heq : UInt64.ofNat i = UInt64.ofNat j := by simpa using hij
  have hmod : i % 2 ^ 64 = j % 2 ^ 64 := by
    have hn := congrArg UInt64.toNat heq
    simpa using hn
  rwa [Nat.mod_eq_of_lt (by omega), Nat.mod_eq_of_lt (by omega)] at hmod

end AliasSequence

end DeviceAttest
