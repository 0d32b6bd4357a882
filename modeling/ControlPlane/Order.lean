/-
# Orders read off a key

Sets and maps of this library are `Std.ExtTreeSet` and `Std.ExtTreeMap`, which ask
for a lawful comparison of their keys. Every key type here is compared through
one or two simpler values. The two combinators below build such comparisons and
show that they stay lawful; nothing is said about types with no key.
-/

import Std.Data.ExtTreeMap
import Std.Data.ExtTreeSet

namespace ControlPlane

open Std

variable {α κ : Type}

/-- Compare two values by what `key` reads off them. -/
def compareBy [Ord κ] (key : α → κ) (a b : α) : Ordering :=
  compare (key a) (key b)

theorem transCmp_compareBy [Ord κ] [TransOrd κ] (key : α → κ) : TransCmp (compareBy key) where
  eq_swap {a b} := OrientedOrd.eq_swap (a := key a) (b := key b)
  isLE_trans hab hbc := TransOrd.isLE_trans hab hbc

/-- A key that tells all values apart makes the comparison agree with equality. -/
theorem lawfulEqCmp_compareBy [Ord κ] [LawfulEqOrd κ] (key : α → κ)
    (injective : ∀ a b, key a = key b → a = b) : LawfulEqCmp (compareBy key) where
  compare_self {a} := ReflOrd.compare_self (a := key a)
  eq_of_compare {a b} h :=
    injective _ _ (LawfulEqOrd.eq_of_compare (show compare (key a) (key b) = .eq from h))

/-- Compare by `first`; `second` decides only ties. -/
def compareThen (first second : α → α → Ordering) (a b : α) : Ordering :=
  (first a b).then (second a b)

private theorem compareThen_isLE_iff (first second : α → α → Ordering) (a b : α) :
    (compareThen first second a b).isLE = true ↔
      first a b = .lt ∨ first a b = .eq ∧ (second a b).isLE = true := by
  unfold compareThen
  cases first a b <;> simp [Ordering.then]

theorem transCmp_compareThen {first second : α → α → Ordering} (hfirst : TransCmp first)
    (hsecond : TransCmp second) : TransCmp (compareThen first second) where
  eq_swap {a b} := by
    unfold compareThen
    have hswap : first a b = (first b a).swap := OrientedCmp.eq_swap
    have hswap' : second a b = (second b a).swap := OrientedCmp.eq_swap
    rw [hswap, hswap']
    cases first b a <;> rfl
  isLE_trans {a b c} hab hbc := by
    rw [compareThen_isLE_iff] at hab hbc ⊢
    rcases hab with hab | ⟨hab, hab'⟩ <;> rcases hbc with hbc | ⟨hbc, hbc'⟩
    · exact .inl (TransCmp.lt_trans hab hbc)
    · exact .inl (TransCmp.lt_of_lt_of_eq hab hbc)
    · exact .inl (TransCmp.lt_of_eq_of_lt hab hbc)
    · exact .inr ⟨TransCmp.eq_trans hab hbc, TransCmp.isLE_trans hab' hbc'⟩

theorem lawfulEqCmp_compareThen {first second : α → α → Ordering} (hfirst : ReflCmp first)
    (hsecond : ReflCmp second)
    (injective : ∀ a b, first a b = .eq → second a b = .eq → a = b) :
    LawfulEqCmp (compareThen first second) where
  compare_self {a} := by
    have hself : first a a = .eq := ReflCmp.compare_self
    have hself' : second a a = .eq := ReflCmp.compare_self
    simp [compareThen, hself, hself', Ordering.then]
  eq_of_compare {a b} h := by
    unfold compareThen at h
    cases hf : first a b <;> rw [hf] at h <;> simp [Ordering.then] at h
    exact injective a b hf h

/-- What a map has once a key was set. -/
theorem getElem?_insert_eq_ite {β : Type} [Ord κ] [TransOrd κ] [LawfulEqOrd κ] [DecidableEq κ]
    (m : ExtTreeMap κ β) (k : κ) (v : β) (other : κ) :
    (m.insert k v)[other]? = if k = other then some v else m[other]? := by
  rw [ExtTreeMap.getElem?_insert]
  simp only [Std.compare_eq_iff_eq]

/-- What a map made from a list has under the key of one of the items. -/
theorem getElem?_ofList_map {β : Type} [Ord κ] [TransOrd κ] [LawfulEqOrd κ] (key : α → κ)
    (value : α → β) {items : List α} (hnodup : (items.map key).Nodup) {item : α}
    (h : item ∈ items) :
    (ExtTreeMap.ofList (items.map fun item => (key item, value item)))[key item]? =
      some (value item) := by
  refine ExtTreeMap.getElem?_ofList_of_mem ReflOrd.compare_self ?_ (List.mem_map_of_mem h)
  exact List.pairwise_map.mpr
    ((List.pairwise_map.mp hnodup).imp fun hne heq => hne (LawfulEqOrd.eq_of_compare heq))

theorem getElem?_ofList_map_eq_some_iff {β : Type} [Ord κ] [TransOrd κ] [LawfulEqOrd κ]
    [DecidableEq κ] {key : α → κ} {value : α → β} {items : List α}
    (hnodup : (items.map key).Nodup) {k : κ} {v : β} :
    (ExtTreeMap.ofList (items.map fun item => (key item, value item)))[k]? = some v ↔
      ∃ item ∈ items, key item = k ∧ value item = v := by
  constructor
  · intro h
    by_cases hkey : k ∈ items.map key
    · obtain ⟨item, hitem, rfl⟩ := List.mem_map.mp hkey
      rw [getElem?_ofList_map key value hnodup hitem] at h
      exact ⟨item, hitem, rfl, Option.some.inj h⟩
    · rw [ExtTreeMap.getElem?_ofList_of_contains_eq_false] at h
      · cases h
      · rw [List.map_map]
        simpa using hkey
  · intro h
    obtain ⟨item, hitem, rfl, rfl⟩ := h
    exact getElem?_ofList_map key value hnodup hitem

/-- What a map made from a list has under a key is what the list has under it. -/
theorem getElem?_ofList_map_eq_find? {β : Type} [Ord κ] [TransOrd κ] [LawfulEqOrd κ]
    [DecidableEq κ] (key : α → κ) (value : α → β) {items : List α}
    (hnodup : (items.map key).Nodup) (k : κ) :
    (ExtTreeMap.ofList (items.map fun item => (key item, value item)))[k]? =
      (items.find? fun item => key item == k).map value := by
  cases hfind : items.find? fun item => key item == k with
  | some item =>
      have hfound := List.find?_some hfind
      have hkey : key item = k := by simpa using hfound
      rw [← hkey, getElem?_ofList_map key value hnodup (List.mem_of_find?_eq_some hfind)]
      rfl
  | none =>
      rw [Option.map_none, Option.eq_none_iff_forall_ne_some]
      intro v hv
      obtain ⟨item, hitem, hkey, -⟩ := (getElem?_ofList_map_eq_some_iff hnodup).mp hv
      exact List.find?_eq_none.mp hfind item hitem (beq_iff_eq.mpr hkey)

end ControlPlane
