import DeviceAttest.Log.Reader
import Mathlib.Data.List.Basic

/-!
# What readers of filters are documented to do

`FilterReader.Documented` is what a library of filters promises, as far as an installation relies on
it: every text is read or refused, and a lenient reading is that of what is left of a text without
the directives that are no filters by themselves (`wellFormedPart`).  Which events a filter lets
through is left open.

* `documented_ofDirectives`: a reader of directives keeps the promise if no single directive breaks
  its reading off.
-/

namespace DeviceAttest.Log.FilterReader

/-- What is left of a text without the directives that are malformed. -/
def wellFormedPart (reader : FilterReader) (text : String) : String :=
  String.ofList ([','].intercalate ((text.toList.splitOn ',').filter fun piece =>
    (reader.read (String.ofList piece)).isOk))

/-- What a reader of filters is documented to do. -/
structure Documented (reader : FilterReader) : Prop where
  /-- A text is read or it is refused. -/
  answers (text : String) : reader.read text ≠ .error .brokenOff
  /-- A text without its malformed directives is read, -/
  reads (text : String) : ∃ filter, reader.read (reader.wellFormedPart text) = .ok filter
  /-- and that is what the lenient reading gives. -/
  lenient (text : String) : reader.readLeniently text = reader.read (reader.wellFormedPart text)
  /-- The name of a level is a filter. -/
  level : ∃ filter, reader.read "info" = .ok filter

/-- A filter that is one directive has no malformed ones. -/
theorem wellFormedPart_info {reader : FilterReader}
    (h : ∃ filter, reader.read "info" = .ok filter) : reader.wellFormedPart "info" = "info" := by
  obtain ⟨filter, hread⟩ := h
  have hpieces : "info".toList.splitOn ',' = ["info".toList] := by decide
  have hok : (reader.read (String.ofList "info".toList)).isOk = true := by
    rw [String.ofList_toList, hread]
    rfl
  rw [wellFormedPart, hpieces, List.filter_singleton, hok]
  rfl

/-! ### Pieces between commas -/

theorem not_mem_of_mem_splitOn {α : Type} [DecidableEq α] {a : α} {s piece : List α}
    (h : piece ∈ s.splitOn a) : a ∉ piece := by
  induction s generalizing piece with
  | nil =>
    rw [List.splitOn_nil, List.mem_singleton] at h
    exact h ▸ List.not_mem_nil
  | cons b s ih =>
    rw [List.splitOn_cons_eq_if_modifyHead] at h
    by_cases hb : b = a
    · rw [if_pos (beq_iff_eq.mpr hb)] at h
      rcases List.mem_cons.mp h with rfl | h
      · exact List.not_mem_nil
      · exact ih h
    · rw [if_neg (mt beq_iff_eq.mp hb)] at h
      cases hs : s.splitOn a with
      | nil => exact absurd hs (List.splitOn_ne_nil a s)
      | cons first later =>
        rw [hs] at h ih
        rcases List.mem_cons.mp h with rfl | h
        · exact List.not_mem_cons_of_ne_of_not_mem (Ne.symm hb) (ih List.mem_cons_self)
        · exact ih (List.mem_cons_of_mem _ h)

/-- Pieces without commas are found again in a text that they are joined to. -/
theorem pieces_intercalate {kept : List (List Char)} (h : ∀ piece ∈ kept, ',' ∉ piece) :
    pieces (String.ofList ([','].intercalate kept)) = kept.filter (· ≠ []) := by
  rw [pieces, String.toList_ofList]
  by_cases hnil : kept = []
  · rw [hnil]
    rfl
  · rw [List.splitOn_intercalate ',' h hnil]

/-- A text without commas is the one piece of itself, if it is not empty. -/
theorem pieces_ofList {piece : List Char} (h : ',' ∉ piece) :
    pieces (String.ofList piece) = [piece].filter (· ≠ []) := by
  rw [pieces, String.toList_ofList, List.splitOn_eq_singleton h]

/-! ### Readers of directives -/

section

variable {δ : Type} {read : List Char → Except FilterFault δ} {admits : List δ → Event → Bool}

theorem read_ofDirectives (text : String) :
    (ofDirectives read admits).read text = (pieces text).mapM read := rfl

/-- What breaks off in neither of its parts does not break off. -/
theorem bind_ne_brokenOff {α β : Type} {x : Except FilterFault α} {f : α → Except FilterFault β}
    (hx : x ≠ .error .brokenOff) (hf : ∀ a, f a ≠ .error .brokenOff) :
    x >>= f ≠ .error .brokenOff := by
  cases x with
  | error e =>
    intro h
    cases h
    exact hx rfl
  | ok a => exact hf a

theorem mapM_ne_brokenOff (h : ∀ piece, read piece ≠ .error .brokenOff)
    (pieces : List (List Char)) : pieces.mapM read ≠ .error .brokenOff := by
  induction pieces with
  | nil => exact nofun
  | cons piece pieces ih =>
    rw [List.mapM_cons]
    exact bind_ne_brokenOff (h piece) fun d => bind_ne_brokenOff ih fun ds => nofun

/-- Directives are read leniently as those that are well formed. -/
theorem readWellFormed_eq (h : ∀ piece, read piece ≠ .error .brokenOff)
    (pieces : List (List Char)) :
    readWellFormed read pieces = .ok (pieces.filterMap fun piece => (read piece).toOption) := by
  induction pieces with
  | nil => rfl
  | cons piece pieces ih =>
    rw [readWellFormed, List.filterMap_cons]
    rcases hpiece : read piece with (_ | _) | d
    · exact ih
    · exact absurd hpiece (h piece)
    · exact congrArg (Except.map (d :: ·)) ih

/-- So they are strictly, if none of them is malformed. -/
theorem mapM_filter_isOk (pieces : List (List Char)) :
    (pieces.filter fun piece => (read piece).isOk).mapM read =
      .ok (pieces.filterMap fun piece => (read piece).toOption) := by
  induction pieces with
  | nil => rfl
  | cons piece pieces ih =>
    rw [List.filter_cons, List.filterMap_cons]
    cases hpiece : read piece with
    | error e => exact ih
    | ok d =>
      show (piece :: pieces.filter fun piece => (read piece).isOk).mapM read = _
      rw [List.mapM_cons, hpiece, ih]
      rfl

/-- A piece is a filter by itself if it is empty or a directive. -/
theorem isOk_read_ofDirectives {piece : List Char} (h : ',' ∉ piece) (hne : piece ≠ []) :
    ((ofDirectives read admits).read (String.ofList piece)).isOk = (read piece).isOk := by
  have hone : pieces (String.ofList piece) = [piece] := by
    rw [pieces_ofList h, List.filter_singleton, decide_eq_true hne]
    rfl
  rw [read_ofDirectives, hone, List.mapM_cons]
  cases read piece with
  | error e => rfl
  | ok d => rfl

/-- The pieces of what is well formed of a text are those that are directives. -/
theorem pieces_wellFormedPart (text : String) :
    pieces ((ofDirectives read admits).wellFormedPart text) =
      (pieces text).filter fun piece => (read piece).isOk := by
  rw [wellFormedPart, pieces_intercalate fun piece hpiece =>
    not_mem_of_mem_splitOn (List.mem_of_mem_filter hpiece)]
  rw [pieces, List.filter_filter, List.filter_filter]
  refine List.filter_congr fun piece hpiece => ?_
  by_cases hne : piece = []
  · simp [hne]
  · rw [isOk_read_ofDirectives (not_mem_of_mem_splitOn hpiece) hne, Bool.and_comm]

/-- **A reader of directives does what is documented**, if it answers for single ones. -/
theorem documented_ofDirectives (hread : ∀ piece, read piece ≠ .error .brokenOff)
    (hinfo : ∃ d, read "info".toList = .ok d) : (ofDirectives read admits).Documented := by
  have hpart (text : String) :
      (ofDirectives read admits).read ((ofDirectives read admits).wellFormedPart text) =
        .ok ((pieces text).filterMap fun piece => (read piece).toOption) := by
    rw [read_ofDirectives, pieces_wellFormedPart, mapM_filter_isOk]
    rfl
  exact {
    answers := fun text => mapM_ne_brokenOff hread _
    reads := fun text => ⟨_, hpart text⟩
    lenient := fun text => (readWellFormed_eq hread _).trans (hpart text).symm
    level := by
      obtain ⟨d, hd⟩ := hinfo
      have hpieces : pieces "info" = ["info".toList] := by decide
      refine ⟨[d], ?_⟩
      rw [read_ofDirectives, hpieces, List.mapM_cons, hd]
      rfl }

end

end DeviceAttest.Log.FilterReader
