import DeviceAttest.Proofs.Alias
import Mathlib.Algebra.Group.Nat.Defs
import Mathlib.Data.List.Nodup

/-!
# Drawing aliases side by side

The threads of a process share its sequence.  A `Drawing` is a moment of any number of threads, each
of which draws aliases for its own bases, one after another; a draw is one step of one thread, and a
schedule says whose step is next.

Whatever the schedule, the numbers come out of the shared sequence one by one
(`Counted.run`).  So as long as there are fewer than 2^64 draws, the numbers are the first positive
ones, each drawn once and in order by each thread, and the texts of the aliases differ and can be
read back, whatever the bases (`aliases_drawn`).
-/

namespace DeviceAttest

/-- Threads that draw aliases: the sequence they share, the bases for which each has still to draw,
and the aliases drawn so far, each with its thread. -/
structure Drawing (ι : Type) where
  sequence : AliasSequence
  pending : ι → List String
  log : List (ι × KeyAlias)

namespace Drawing

variable {ι : Type}

/-- The threads before any draw, in a process that has just started. -/
def start (bases : ι → List String) : Drawing ι := ⟨.start, bases, []⟩

/-- All aliases, in the order of the draws. -/
def aliases (d : Drawing ι) : List KeyAlias := d.log.map Prod.snd

variable [DecidableEq ι]

/-- The aliases of one thread, in the order of its draws. -/
def drawnBy (d : Drawing ι) (i : ι) : List KeyAlias :=
  (d.log.filter fun entry => entry.1 = i).map Prod.snd

/-- The next draw of a thread; one with nothing to draw stays as it is. -/
def step (process : ProcessLabel) (d : Drawing ι) (i : ι) : Drawing ι :=
  match d.pending i with
  | []            => d
  | base :: bases =>
    let (drawn, sequence) := d.sequence.drawAlias process base
    { sequence
      pending := Function.update d.pending i bases
      log := d.log ++ [(i, drawn)] }

/-- The draws of a schedule. -/
def run (process : ProcessLabel) (d : Drawing ι) (schedule : List ι) : Drawing ι :=
  schedule.foldl (step process) d

/-- A thread with nothing to draw stays as it is, any other draws for its next base. -/
theorem step_cases (process : ProcessLabel) (d : Drawing ι) (i : ι) :
    (d.pending i = [] ∧ d.step process i = d) ∨
      ∃ base bases, d.pending i = base :: bases ∧
        d.step process i =
          ⟨d.sequence.advance, Function.update d.pending i bases,
            d.log ++ [(i, ⟨base, process, d.sequence.next⟩)]⟩ := by
  cases hpending : d.pending i with
  | nil => exact .inl ⟨rfl, by simp [step, hpending]⟩
  | cons base bases =>
    exact .inr ⟨base, bases, rfl, by simp [step, hpending, AliasSequence.drawAlias]⟩

/-- What holds at every moment: the sequence has counted the draws, the numbers are those it gave
out, modulo 2^64, and each thread has drawn for the first of its bases. -/
structure Counted (process : ProcessLabel) (bases : ι → List String) (d : Drawing ι) : Prop where
  sequence : d.sequence = ⟨UInt64.ofNat d.log.length⟩
  numbers : d.aliases.map KeyAlias.number = (List.range' 1 d.log.length).map UInt64.ofNat
  process : ∀ a ∈ d.aliases, a.process = process
  served : ∀ i, (d.drawnBy i).map KeyAlias.base ++ d.pending i = bases i

namespace Counted

variable {process : ProcessLabel} {bases : ι → List String} {d : Drawing ι}

theorem start (process : ProcessLabel) (bases : ι → List String) :
    Counted process bases (.start bases) where
  sequence := rfl
  numbers := rfl
  process := fun _ ha => absurd ha List.not_mem_nil
  served := fun _ => rfl

theorem step (h : Counted process bases d) (i : ι) : Counted process bases (d.step process i) := by
  obtain ⟨-, heq⟩ | ⟨base, rest, hpending, heq⟩ := step_cases process d i
  · rw [heq]
    exact h
  · rw [heq]
    have hnext : d.sequence.next = UInt64.ofNat (1 + d.log.length) := by
      rw [h.sequence, AliasSequence.next, UInt64.add_comm, UInt64.ofNat_add]
      rfl
    constructor
    case sequence =>
      show (⟨d.sequence.next⟩ : AliasSequence) = _
      rw [hnext, List.length_append, Nat.add_comm]
      rfl
    case numbers =>
      have hnumbers := h.numbers
      simp only [aliases, List.map_append, List.length_append, List.length_singleton,
        List.range'_concat] at hnumbers ⊢
      simp [hnumbers, hnext]
    case process =>
      intro a ha
      rw [aliases, List.map_append, List.mem_append] at ha
      rcases ha with ha | ha
      · exact h.process a ha
      · exact congrArg KeyAlias.process (List.mem_singleton.mp ha)
    case served =>
      intro j
      have hserved := h.served j
      by_cases hij : j = i
      · subst hij
        simpa [drawnBy, hpending] using hserved
      · simpa [drawnBy, hij, Ne.symm hij] using hserved

/-- Every schedule keeps count. -/
theorem run (h : Counted process bases d) (schedule : List ι) :
    Counted process bases (d.run process schedule) := by
  induction schedule generalizing d with
  | nil => exact h
  | cons i schedule ih => exact ih (h.step i)

/-- Fewer than 2^64 draws give out the first positive numbers. -/
theorem toNat_numbers (h : Counted process bases d) (hlt : d.log.length < 2 ^ 64) :
    d.aliases.map (fun a => a.number.toNat) = List.range' 1 d.log.length := by
  have hmod : ∀ n ∈ List.range' 1 d.log.length, (UInt64.ofNat n).toNat = n := by
    intro n hn
    rw [List.mem_range'_1] at hn
    rw [UInt64.toNat_ofNat', Nat.mod_eq_of_lt (by omega)]
  calc d.aliases.map (fun a => a.number.toNat)
      = (d.aliases.map KeyAlias.number).map UInt64.toNat := by rw [List.map_map]; rfl
    _ = (List.range' 1 d.log.length).map (UInt64.toNat ∘ UInt64.ofNat) := by
      rw [h.numbers, List.map_map]
    _ = List.range' 1 d.log.length := (List.map_congr_left hmod).trans (List.map_id' _)

end Counted

/-- **Aliases are drawn once and can be read back.**  Whatever the bases of the threads and whoever
draws next, fewer than 2^64 draws give out the first positive numbers, each once and to each thread
in order, and no two aliases have the same text.  The last two dashes of a text split it into the
base, the number of the process and the number that was drawn. -/
theorem aliases_drawn (id : Nat) (bases : ι → List String) (schedule : List ι)
    {d : Drawing ι} (hd : d = (start bases).run (.ofNat id) schedule)
    (hlt : d.log.length < 2 ^ 64) :
    d.aliases.map (fun a => a.number.toNat) = List.range' 1 d.log.length ∧
      (∀ i, ((d.drawnBy i).map fun a => a.number.toNat).Pairwise (· < ·)) ∧
      (∀ i, (d.drawnBy i).map KeyAlias.base ++ d.pending i = bases i) ∧
      (d.aliases.map KeyAlias.text).Nodup ∧
      ∀ a ∈ d.aliases,
        KeyAlias.parts? a.text = some (a.base, toString id, toString a.number.toNat) := by
  subst hd
  have hcounted := (Counted.start (.ofNat id) bases).run schedule
  have hnumbers := hcounted.toNat_numbers hlt
  have hordered : ((run (.ofNat id) (start bases) schedule).log.map
      fun entry => entry.2.number.toNat).Pairwise (· < ·) := by
    rw [aliases, List.map_map] at hnumbers
    exact hnumbers ▸ List.pairwise_lt_range'
  refine ⟨hnumbers, fun i => ?_, hcounted.served, ?_, fun a ha => ?_⟩
  · rw [drawnBy, List.map_map]
    exact hordered.sublist (List.filter_sublist.map _)
  · have hnodup : ((run (.ofNat id) (start bases) schedule).aliases.map
        fun a => a.number.toNat).Nodup := hnumbers ▸ List.nodup_range'
    exact (hnodup.of_map _).map KeyAlias.text_injective
  · rw [KeyAlias.parts?_text, hcounted.process a ha, Nat.toString_eq_repr]
    rfl

/-- Three threads whose bases run into the other parts of an alias; the last turn finds nothing to
draw. -/
def dashed : Drawing (Fin 3) :=
  (start fun
    | 0 => ["a", "a-7"]
    | 1 => ["", "a-7-1"]
    | 2 => ["-"]).run (.ofNat 7) [1, 0, 2, 1, 0, 0]

theorem aliases_drawn_dashed :
    dashed.log.length < 2 ^ 64 ∧
      dashed.aliases.map KeyAlias.text = ["-7-1", "a-7-2", "--7-3", "a-7-1-7-4", "a-7-7-5"] ∧
      (dashed.aliases.map KeyAlias.text).Nodup ∧
      ∀ a ∈ dashed.aliases,
        KeyAlias.parts? a.text = some (a.base, toString 7, toString a.number.toNat) := by
  have hlt : dashed.log.length < 2 ^ 64 := by decide +kernel
  obtain ⟨-, -, -, hnodup, hparts⟩ := aliases_drawn 7 _ _ rfl hlt
  exact ⟨hlt, by decide +kernel, hnodup, hparts⟩

end Drawing

end DeviceAttest
