import DeviceAttest.Call.Event

/-!
# Readers of log filters

A filter says which events are let through.  How filters are written, and which events they let
through, is up to a library; a `FilterReader` is what it offers.  `FilterReader.ofDirectives` is the
reader of filters that are directives with commas between them.
-/

namespace DeviceAttest.Log

/-- Why a text gives no filter. -/
inductive FilterFault where
  | malformed
  /-- The reading broke off. -/
  | brokenOff
  deriving DecidableEq

/-- What a library of filters offers. -/
structure FilterReader where
  Filter : Type
  /-- Reads a filter. -/
  read : String → Except FilterFault Filter
  /-- Reads a filter and leaves out what is malformed of it. -/
  readLeniently : String → Except FilterFault Filter
  /-- Whether an event is let through. -/
  admits : Filter → Event → Bool

namespace FilterReader

/-- The texts of directives, with commas between them; empty ones do not count. -/
def pieces (text : String) : List (List Char) := (text.toList.splitOn ',').filter (· ≠ [])

variable {δ : Type}

/-- Reads directives and leaves out those that are malformed. -/
def readWellFormed (read : List Char → Except FilterFault δ) :
    List (List Char) → Except FilterFault (List δ)
  | []              => .ok []
  | piece :: pieces =>
    match read piece with
    | .ok d             => (readWellFormed read pieces).map (d :: ·)
    | .error .malformed => readWellFormed read pieces
    | .error .brokenOff => .error .brokenOff

/-- The reader of directives of a kind, from one for a single directive and a way to decide. -/
def ofDirectives (read : List Char → Except FilterFault δ) (admits : List δ → Event → Bool) :
    FilterReader where
  Filter := List δ
  read text := (pieces text).mapM read
  readLeniently text := readWellFormed read (pieces text)
  admits := admits

end FilterReader

end DeviceAttest.Log
