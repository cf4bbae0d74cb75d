/-!
# Finite types with named members

Several types of this library are closed lists of alternatives that documents and messages refer
to by name.  `Named` collects the members in their order and their names, and asks that looking a
name up in that order finds the member it belongs to.
-/

namespace DeviceAttest

/-- A finite type whose members are written by name. -/
class Named (α : Type) where
  /-- The members, in ascending order. -/
  all : List α
  /-- The name of a member. -/
  name : α → String
  /-- No two members share a name, and every member is listed. -/
  find_name (a : α) : all.find? (fun b => name b == name a) = some a

/-- The member of a given name. -/
def Named.ofName? {α : Type} [Named α] (text : String) : Option α :=
  (Named.all : List α).find? fun a => Named.name a == text

/-- Looking up a member's name gives the member back. -/
theorem Named.ofName?_name {α : Type} [Named α] (a : α) : Named.ofName? (Named.name a) = some a :=
  Named.find_name a

end DeviceAttest
