import DeviceAttest.Json.Read
import DeviceAttest.Proofs.Json.Token

/-!
# Values read back

The machine that reads a value is told by what it does with the text of one (`Reader.advance`).
Where a value is due, the text of a value takes it to the state in which that value is complete,
whatever is open and whatever ends the value (`Reader.advance_writeChars`, by induction on the
value).  So every value is read back from its text (`read?_write`).
-/

namespace DeviceAttest.Json

namespace Reader

/-- The machine after the tokens of a text. -/
def advance (r : Reader) (s : List Char) : Option Reader := do (← tokens? s).foldlM step r

section

variable {opened : List Frame} {closable : Bool} {s : List Char}

theorem advance_nil (r : Reader) : r.advance [] = some r := by
  rw [advance, tokens?]
  rfl

/-- The first token is taken before the others. -/
theorem advance_cons {r : Reader} {c : Char} {rest : List Char} (t : Token)
    (hblank : Token.isBlank c = false) (h : Token.read c s = some (t, rest)) :
    r.advance (c :: s) = (r.step t).bind (·.advance rest) := by
  have htokens : tokens? (c :: s) = (tokens? rest).map (t :: ·) := by
    rw [tokens?, hblank]
    simp only [Bool.false_eq_true, if_false]
    split
    · next hnone => cases h.symm.trans hnone
    · next t' rest' hsome =>
      obtain ⟨rfl, rfl⟩ := Prod.mk.inj (Option.some.inj (h.symm.trans hsome))
      rfl
  rw [advance, htokens]
  unfold advance
  cases tokens? rest with
  | none => -- both sides fail, the one before and the other after the first token
    cases r.step t <;> rfl
  | some ts =>
    show (t :: ts).foldlM step r = _
    rw [List.foldlM_cons]
    rfl

/-! ### Scalar values -/

theorem advance_null :
    advance ⟨opened, .value closable⟩ (null.writeChars ++ s) =
      (complete opened .null).bind (·.advance s) := by
  rw [writeChars]
  exact advance_cons .null rfl rfl

theorem advance_bool (value : Bool) :
    advance ⟨opened, .value closable⟩ ((bool value).writeChars ++ s) =
      (complete opened (.bool value)).bind (·.advance s) := by
  cases value <;> rw [writeChars]
  · exact advance_cons (.bool false) rfl rfl
  · exact advance_cons (.bool true) rfl rfl

theorem advance_string (text : JsonText) :
    advance ⟨opened, .value closable⟩ ((string text).writeChars ++ s) =
      (complete opened (.string text)).bind (·.advance s) := by
  rw [writeChars, writeText, List.cons_append, List.append_assoc]
  exact advance_cons (.string text) rfl (Token.readString_writeInner text s)

/-- The digits of a number are taken as a number, after a sign or without one. -/
theorem advance_toDigits (n : Nat) (hs : Token.Ends s) :
    advance ⟨opened, .value closable⟩ (Nat.toDigits 10 n ++ s) =
      (complete opened (.integer n)).bind (·.advance s) := by
  obtain ⟨c, digits, hdigits⟩ :=
    List.exists_cons_of_ne_nil (Nat.toDigits_ne_nil (n := n) (b := 10))
  have hdigit : c.isDigit :=
    Nat.isDigit_of_mem_toDigits (b := 10) (n := n) (by decide) (by decide)
      (hdigits ▸ List.mem_cons_self)
  have hblank : Token.isBlank c = false := by
    by_contra hc
    simp only [Token.isBlank, Bool.not_eq_false, Bool.or_eq_true, decide_eq_true_iff] at hc
    rcases hc with ((rfl | rfl) | rfl) | rfl <;> exact absurd hdigit (by decide)
  have hread := Token.readMagnitude_toDigits false n hs
  rw [hdigits, List.cons_append] at hread ⊢
  exact advance_cons (.integer n) hblank ((Token.read_of_isDigit hdigit _).trans hread)

/-- After a sign the digits of a number are taken as its negation. -/
theorem advance_sign_toDigits {n : Nat} (h : n ≠ 0) (hs : Token.Ends s) :
    advance ⟨opened, .value closable⟩ ('-' :: Nat.toDigits 10 n ++ s) =
      (complete opened (.integer (-n))).bind (·.advance s) := by
  have hread := Token.readMagnitude_toDigits true n hs
  rw [if_neg fun hzero => h hzero.2] at hread
  exact advance_cons (.integer (-n)) rfl hread

theorem advance_integer (value : Int) (hs : Token.Ends s) :
    advance ⟨opened, .value closable⟩ ((integer value).writeChars ++ s) =
      (complete opened (.integer value)).bind (·.advance s) := by
  rw [writeChars, Int.toString_eq_repr, Int.repr_eq_if]
  split
  · next h =>
    rw [Nat.toList_repr, advance_toDigits _ hs, Int.toNat_of_nonneg h]
  · next h =>
    have hneg : (((-value).toNat : Nat) : Int) = -value := Int.toNat_of_nonneg (by omega)
    rw [String.toList_append, Nat.toList_repr]
    refine (advance_sign_toDigits (n := (-value).toNat) (by omega) hs).trans ?_
    rw [hneg, Int.neg_neg]

theorem advance_decimal (hs : Token.Ends s) :
    advance ⟨opened, .value closable⟩ (decimal.writeChars ++ s) =
      (complete opened .decimal).bind (·.advance s) := by
  rw [writeChars]
  exact advance_cons .decimal rfl (Token.readMagnitude_toDigits true 0 hs)

/-! ### Arrays and objects -/

/-- A name and its colon make the value of a member due. -/
theorem advance_key (before : List (JsonText × Json)) (name : JsonText) :
    advance ⟨.object before :: opened, .key closable⟩ (writeText name ++ ':' :: s) =
      advance ⟨.member before name :: opened, .value false⟩ s := by
  have hname := Token.readString_writeInner name (':' :: s)
  rw [writeText, List.cons_append, List.append_assoc, List.singleton_append]
  refine (advance_cons (c := '"') (.string name) rfl hname).trans ?_
  exact advance_cons (c := ':') .colon rfl rfl

end

mutual

/-- **The text of a value** completes the value where one is due. -/
theorem advance_writeChars (opened : List Frame) (closable : Bool) {s : List Char}
    (hs : Token.Ends s) : (j : Json) →
    advance ⟨opened, .value closable⟩ (j.writeChars ++ s) =
      (complete opened j).bind (·.advance s)
  | null => advance_null
  | bool value => advance_bool value
  | integer value => advance_integer value hs
  | decimal => advance_decimal hs
  | string text => advance_string text
  | array items => by
    rw [writeChars, List.cons_append, advance_cons .openArray rfl rfl]
    exact advance_writeItems opened [] true items fun _ => rfl
  | object members => by
    rw [writeChars, List.cons_append, advance_cons .openObject rfl rfl]
    exact advance_writeMembers opened [] true members fun _ => rfl

/-- The items of an array and its closing bracket complete the array. -/
theorem advance_writeItems (opened : List Frame) (before : List Json) (closable : Bool)
    {s : List Char} :
    -- the closing bracket may come in place of an item only directly after the opening one
    (items : List Json) → (items = [] → closable = true) →
    advance ⟨.array before :: opened, .value closable⟩ (writeItems items ++ s) =
      (complete opened (.array (before.reverse ++ items))).bind (·.advance s)
  | [], hclosable => by
    obtain rfl := hclosable rfl
    rw [writeItems, List.append_nil]
    exact advance_cons .closeArray rfl rfl
  | [item], _ => by
    have hitem := advance_writeChars (.array before :: opened) closable
      (Token.ends_cons (c := ']') (by decide) s) item
    rw [writeItems, List.append_assoc, List.singleton_append, hitem, ← List.reverse_cons]
    exact advance_cons .closeArray rfl rfl
  | item :: next :: items, _ => by
    have hitem := advance_writeChars (.array before :: opened) closable
      (Token.ends_cons (c := ',') (by decide) (writeItems (next :: items) ++ s)) item
    have hitems := advance_writeItems opened (item :: before) false (s := s) (next :: items) nofun
    rw [List.reverse_cons, List.append_assoc] at hitems
    rw [writeItems, List.append_assoc, List.cons_append, hitem]
    · exact (advance_cons .comma rfl rfl).trans hitems
    · exact nofun

/-- The members of an object and its closing bracket complete the object. -/
theorem advance_writeMembers (opened : List Frame) (before : List (JsonText × Json))
    (closable : Bool) {s : List Char} : (members : List (JsonText × Json)) →
    (members = [] → closable = true) →
    advance ⟨.object before :: opened, .key closable⟩ (writeMembers members ++ s) =
      (complete opened (.object (before.reverse ++ members))).bind (·.advance s)
  | [], hclosable => by
    obtain rfl := hclosable rfl
    rw [writeMembers, List.append_nil]
    exact advance_cons .closeObject rfl rfl
  | [(name, value)], _ => by
    have hvalue := advance_writeChars (.member before name :: opened) false
      (Token.ends_cons (c := '}') (by decide) s) value
    rw [writeMembers, List.append_assoc, List.append_assoc, List.cons_append, List.singleton_append,
      advance_key, hvalue, ← List.reverse_cons]
    exact advance_cons .closeObject rfl rfl
  | (name, value) :: next :: members, _ => by
    have hvalue := advance_writeChars (.member before name :: opened) false
      (Token.ends_cons (c := ',') (by decide) (writeMembers (next :: members) ++ s)) value
    have hmembers := advance_writeMembers opened ((name, value) :: before) false (s := s)
      (next :: members) nofun
    rw [List.reverse_cons, List.append_assoc] at hmembers
    rw [writeMembers, List.append_assoc, List.append_assoc, List.cons_append, List.cons_append,
      advance_key, hvalue]
    · exact (advance_cons .comma rfl rfl).trans hmembers
    · exact nofun

end

end Reader

/-- A value is read by taking the tokens of its text one after the other. -/
theorem read?_eq_advance (text : String) :
    read? text = (Reader.start.advance text.toList).bind Reader.result? := by
  unfold read? Reader.advance
  cases tokens? text.toList with
  | none => rfl
  | some tokens => rfl

/-- **Every value is read back** from its text. -/
theorem read?_write (j : Json) : read? j.write = some j := by
  have hwhole := Reader.advance_writeChars [] false Token.ends_nil j
  rw [List.append_nil] at hwhole
  rw [read?_eq_advance, write, String.toList_ofList, Reader.start, hwhole]
  exact congrArg (·.bind Reader.result?) (Reader.advance_nil _)

end DeviceAttest.Json
