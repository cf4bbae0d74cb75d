/-!
# Aliases of temporary keys

A temporary key is known by an alias that no other call of the process uses: a freely chosen base,
the label of the process and a number drawn from a sequence that the whole process shares.  The
parts are joined by dashes; since neither the label nor the number has a dash, the parts can be told
from the text.
-/

namespace DeviceAttest

/-- The text that stands for the running process in an alias; it has no dash. -/
structure ProcessLabel where
  text : String
  dash_not_mem : '-' ∉ text.toList

/-- A process known by the digits of its number. -/
def ProcessLabel.ofNat (id : Nat) : ProcessLabel where
  text := toString id
  dash_not_mem h := by
    have hd := Nat.isDigit_of_mem_toDigits (by decide) (by decide) (c := '-') (n := id) (b := 10)
    rw [Nat.toString_eq_repr, Nat.toList_repr] at h
    exact absurd (hd h) (by decide)

/-- The alias of a temporary key. -/
structure KeyAlias where
  base : String
  process : ProcessLabel
  number : UInt64

/-- The text of an alias, by which a keystore knows the key. -/
def KeyAlias.text (a : KeyAlias) : String :=
  s!"{a.base}-{a.process.text}-{a.number.toNat}"

/-! ### The shared sequence -/

/-- How many numbers were drawn so far, modulo 2^64. -/
structure AliasSequence where
  drawn : UInt64
  deriving DecidableEq

namespace AliasSequence

/-- The sequence of a process that has just started. -/
def start : AliasSequence := ⟨0⟩

/-- The number that is drawn next. -/
def next (s : AliasSequence) : UInt64 := s.drawn + 1

/-- The sequence after a draw. -/
def advance (s : AliasSequence) : AliasSequence := ⟨s.drawn + 1⟩

/-- Draws the alias of a base, and the sequence after the draw. -/
def drawAlias (s : AliasSequence) (process : ProcessLabel) (base : String) :
    KeyAlias × AliasSequence :=
  (⟨base, process, s.next⟩, s.advance)

/-- Draws the aliases of a list of bases, in order. -/
def drawAliases (process : ProcessLabel) : AliasSequence → List String →
    List KeyAlias × AliasSequence
  | s, []             => ([], s)
  | s, base :: bases  =>
    let (first, s) := s.drawAlias process base
    let (later, s) := drawAliases process s bases
    (first :: later, s)

end AliasSequence

end DeviceAttest
