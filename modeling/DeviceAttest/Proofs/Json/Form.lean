import DeviceAttest.Json.Form
import DeviceAttest.Proofs.Json.Read

/-!
# Forms that read back what they write

A form is lawful if every value is read back from the JSON value that is written for it; then it is
read back from its text, too (`JsonForm.read?_write`).  Numbers of a fixed width, texts, lists and
named alternatives have lawful forms.  A record is read from an object of its fields, given or left
out, as long as no two of them share a name (`Json.fields?_ofFields`).
-/

namespace DeviceAttest

open JsonForm

/-- A form in which every value is read back from what is written for it. -/
class LawfulJsonForm (α : Type) [JsonForm α] : Prop where
  ofJson?_toJson (a : α) : ofJson? (toJson a) = some a

/-- Reading what is written, item by item. -/
theorem mapM_map_of_forall {α β γ : Type} {f : β → Option γ} {g : α → β} {h : α → γ}
    {items : List α} (hf : ∀ a ∈ items, f (g a) = some (h a)) :
    (items.map g).mapM f = some (items.map h) := by
  induction items with
  | nil => rfl
  | cons a items ih =>
    have hlater := ih fun b hb => hf b (List.mem_cons_of_mem _ hb)
    rw [List.map_cons, List.mapM_cons, hf a List.mem_cons_self, hlater]
    rfl

namespace JsonForm

/-- What is read from a value is read from its text. -/
theorem read?_write_of_ofJson? {α : Type} [JsonForm α] {j : Json} {a : α}
    (h : ofJson? j = some a) : read? j.write = some a := by
  rw [read?, Json.read?_write]
  exact h

section

variable {α : Type} [JsonForm α] [LawfulJsonForm α]

@[simp] theorem ofJson?_toJson (a : α) : ofJson? (toJson a) = some a :=
  LawfulJsonForm.ofJson?_toJson a

theorem map_ofJson?_toJson {β : Type} (f : α → β) (a : α) :
    (ofJson? (toJson a)).map f = some (f a) := by
  rw [ofJson?_toJson, Option.map_some]

/-- **A value is read back** from its text. -/
theorem read?_write (a : α) : read? (write a) = some a :=
  read?_write_of_ofJson? (ofJson?_toJson a)

/-- Different values are written differently. -/
theorem write_injective : Function.Injective (write : α → String) := fun a b h =>
  Option.some.inj ((read?_write a).symm.trans ((congrArg read? h).trans (read?_write b)))

end

/-! ### Numbers and texts -/

/-- An integer is read exactly if it lies between the bounds. -/
theorem integer?_eq_some_iff {low high n : Int} {j : Json} :
    integer? low high j = some n ↔ j = .integer n ∧ low ≤ n ∧ n ≤ high := by
  cases j with
  | integer m =>
    rw [integer?, Option.ite_none_right_eq_some]
    constructor
    · rintro ⟨h, ⟨⟩⟩
      exact ⟨rfl, h⟩
    · rintro ⟨⟨⟩, h⟩
      exact ⟨h, rfl⟩
  | _ => exact ⟨nofun, nofun⟩

theorem integer?_integer {low high n : Int} (hlow : low ≤ n) (hhigh : n ≤ high) :
    integer? low high (.integer n) = some n :=
  integer?_eq_some_iff.mpr ⟨rfl, hlow, hhigh⟩

end JsonForm

instance : LawfulJsonForm UInt8 where
  ofJson?_toJson n := by
    have h := n.toNat_lt
    show (integer? _ _ (.integer n.toNat)).map _ = _
    rw [integer?_integer (by omega) (by omega), Option.map_some, Int.toNat_natCast,
      UInt8.ofNat_toNat]

instance : LawfulJsonForm UInt32 where
  ofJson?_toJson n := by
    have h := n.toNat_lt
    show (integer? _ _ (.integer n.toNat)).map _ = _
    rw [integer?_integer (by omega) (by omega), Option.map_some, Int.toNat_natCast,
      UInt32.ofNat_toNat]

instance : LawfulJsonForm UInt64 where
  ofJson?_toJson n := by
    have h := n.toNat_lt
    show (integer? _ _ (.integer n.toNat)).map _ = _
    rw [integer?_integer (by omega) (by omega), Option.map_some, Int.toNat_natCast,
      UInt64.ofNat_toNat]

instance : LawfulJsonForm Int32 where
  ofJson?_toJson n := by
    have hlow := n.le_toInt
    have hhigh := n.toInt_lt
    show (integer? _ _ (.integer n.toInt)).map _ = _
    rw [integer?_integer (by omega) (by omega), Option.map_some, Int32.ofInt_toInt]

instance : LawfulJsonForm Int64 where
  ofJson?_toJson n := by
    have hlow := n.le_toInt
    have hhigh := n.toInt_lt
    show (integer? _ _ (.integer n.toInt)).map _ = _
    rw [integer?_integer (by omega) (by omega), Option.map_some, Int64.ofInt_toInt]

instance : LawfulJsonForm String where
  ofJson?_toJson _ := rfl

instance {α : Type} [JsonForm α] [LawfulJsonForm α] : LawfulJsonForm (List α) where
  ofJson?_toJson items := by
    show (items.map toJson).mapM ofJson? = some items
    rw [mapM_map_of_forall (fun a _ => ofJson?_toJson a), List.map_id']

/-- A named alternative is read by its name. -/
theorem LawfulJsonForm.ofNamed (α : Type) [Named α] :
    @LawfulJsonForm α (JsonForm.ofNamed α) :=
  @LawfulJsonForm.mk α (JsonForm.ofNamed α) Named.ofName?_name

namespace Json

/-! ### Records -/

/-- The members of an object for the fields that are given. -/
def membersOf (fields : List (String × Option Json)) : List (JsonText × Json) :=
  fields.filterMap fun (name, value) => value.map (some name, ·)

/-- The object of the fields that are given. -/
def ofFields (fields : List (String × Option Json)) : Json := object (membersOf fields)

theorem mem_membersOf {fields : List (String × Option Json)} {member : JsonText × Json} :
    member ∈ membersOf fields ↔ ∃ name value, (name, some value) ∈ fields ∧
      member = (some name, value) := by
  rw [membersOf, List.mem_filterMap]
  constructor
  · rintro ⟨⟨name, value⟩, hfield, hmember⟩
    obtain ⟨value, rfl, rfl⟩ := Option.map_eq_some_iff.mp hmember
    exact ⟨name, value, hfield, rfl⟩
  · rintro ⟨name, value, hfield, rfl⟩
    exact ⟨(name, some value), hfield, rfl⟩

theorem filter_membersOf_of_notMem {fields : List (String × Option Json)} {name : String}
    (h : name ∉ fields.map Prod.fst) :
    (membersOf fields).filter (fun member => member.1 == some name) = [] := by
  rw [List.filter_eq_nil_iff]
  intro member hmember hname
  obtain ⟨name', value, hfield, rfl⟩ := mem_membersOf.mp hmember
  obtain rfl : name' = name := Option.some.inj (beq_iff_eq.mp hname)
  exact h (List.mem_map.mpr ⟨_, hfield, rfl⟩)

/-- Of fields with distinct names, one makes all the members of its name. -/
theorem filter_membersOf_of_mem {fields : List (String × Option Json)}
    (h : (fields.map Prod.fst).Nodup) {name : String} {value : Option Json}
    (hmem : (name, value) ∈ fields) :
    (membersOf fields).filter (fun member => member.1 == some name) =
      (value.map (some name, ·)).toList := by
  induction fields with
  | nil => cases hmem
  | cons field fields ih =>
    obtain ⟨hnot, hlater⟩ := List.nodup_cons.mp h
    have hsplit : membersOf (field :: fields) = membersOf [field] ++ membersOf fields :=
      List.filterMap_append (l := [field])
    rw [hsplit, List.filter_append]
    cases hmem with
    | head =>
      rw [filter_membersOf_of_notMem hnot, List.append_nil]
      cases value with
      | none => rfl
      | some value => exact List.filter_cons_of_pos (beq_self_eq_true _)
    | tail _ hmem =>
      have hname : name ∉ [field].map Prod.fst := fun hname =>
        hnot (List.mem_singleton.mp hname ▸ List.mem_map.mpr ⟨_, hmem, rfl⟩)
      rw [ih hlater hmem, filter_membersOf_of_notMem hname, List.nil_append]

/-- **An object of fields** with distinct names is read as these fields. -/
theorem fields?_ofFields {fields : List (String × Option Json)} {names : List String}
    (hfields : fields.map Prod.fst = names) (h : names.Nodup) :
    fields? names (ofFields fields) = some (fields.map Prod.snd) := by
  subst hfields
  have hnames : (membersOf fields).all fun member => member.1.isSome := by
    rw [List.all_eq_true]
    intro member hmember
    obtain ⟨name, value, -, rfl⟩ := mem_membersOf.mp hmember
    rfl
  rw [ofFields, fields?, if_pos hnames]
  refine mapM_map_of_forall fun (name, value) hfield => ?_
  rw [member?, filter_membersOf_of_mem h hfield]
  cases value <;> rfl

theorem ofMembers_eq_ofFields (members : List (String × Json)) :
    ofMembers members = ofFields (members.map fun (name, value) => (name, some value)) := by
  rw [ofMembers, ofFields, membersOf, List.filterMap_map]
  exact congrArg object (congrFun List.filterMap_eq_map members).symm

/-- An object with a member for each field is read as all fields. -/
theorem fields?_ofMembers {members : List (String × Json)} {names : List String}
    (hnames : members.map Prod.fst = names) (h : names.Nodup) :
    fields? names (ofMembers members) = some (members.map fun member => some member.2) := by
  rw [ofMembers_eq_ofFields, fields?_ofFields _ h, List.map_map]
  · rfl
  · rw [List.map_map, ← hnames]
    rfl

section

variable {α : Type} [JsonForm α] [LawfulJsonForm α]

theorem required?_toJson (a : α) : required? (some (toJson a)) = some a := ofJson?_toJson a

/-- A field that is left out has its standard value. -/
theorem optional?_map_toJson (standard : α) (a : Option α) :
    optional? standard (a.map toJson) = some (a.getD standard) := by
  cases a with
  | none => rfl
  | some a => exact ofJson?_toJson a

end

end Json

end DeviceAttest
