/-
# Counting what a map has

Setting a key of a map exchanges one item for another, so every count and every sum over the items
changes by that one item. With this the statistics of a cache are read: they count each slot once,
under the tag of its class, and no two classes share a tag.
-/

import ControlPlane.Proofs.Cache.Entries
import Mathlib.Data.List.Nodup

namespace ControlPlane

open Std (ExtTreeMap)

/-! ## Counting in maps -/

section Counting

variable {κ β : Type} [Ord κ] [Std.TransOrd κ] [Std.LawfulEqOrd κ]

theorem nodup_toList (m : ExtTreeMap κ β) : m.toList.Nodup := by
  refine ExtTreeMap.distinct_keys_toList.imp ?_
  rintro item _ hne rfl
  exact hne Std.ReflOrd.compare_self

/-- Setting a key puts one item among those of the other keys. -/
theorem toList_insert_perm (m : ExtTreeMap κ β) (k : κ) (v : β) :
    (m.insert k v).toList.Perm ((k, v) :: (m.erase k).toList) := by
  classical
  have hnew : (k, v) ∉ (m.erase k).toList := by
    simp [ExtTreeMap.mem_toList_iff_getElem?_eq_some]
  rw [List.perm_ext_iff_of_nodup (nodup_toList _) (List.nodup_cons.mpr ⟨hnew, nodup_toList _⟩)]
  rintro ⟨k', v'⟩
  simp only [List.mem_cons, ExtTreeMap.mem_toList_iff_getElem?_eq_some, getElem?_insert_eq_ite,
    ExtTreeMap.getElem?_erase, Std.compare_eq_iff_eq, Prod.mk.injEq]
  by_cases hkey : k = k'
  · simp [hkey, eq_comm]
  · simp [hkey, Ne.symm hkey]

theorem insert_eq_self {m : ExtTreeMap κ β} {k : κ} {v : β} (h : m[k]? = some v) :
    m.insert k v = m := by
  classical
  apply ExtTreeMap.ext_getElem?
  intro k'
  rw [getElem?_insert_eq_ite]
  split
  · next heq => rw [← heq, h]
  · rfl

theorem erase_eq_self {m : ExtTreeMap κ β} {k : κ} (h : m[k]? = none) : m.erase k = m := by
  classical
  apply ExtTreeMap.ext_getElem?
  intro k'
  rw [ExtTreeMap.getElem?_erase]
  split
  · next heq => rw [← Std.compare_eq_iff_eq.mp heq, h]
  · rfl

/-- An item is counted, or it is not there. -/
theorem countP_erase (m : ExtTreeMap κ β) (k : κ) (p : κ × β → Bool) :
    (m.erase k).toList.countP p + (m[k]?.any fun old => p (k, old)).toNat = m.toList.countP p := by
  cases hold : m[k]? with
  | none =>
      rw [erase_eq_self hold]
      rfl
  | some old =>
      have hperm := (toList_insert_perm m k old).countP_eq p
      rw [insert_eq_self hold, List.countP_cons] at hperm
      rw [hperm, Option.any_some]
      cases p (k, old) <;> rfl

/-- Setting a key counts the new item in place of the one that was there. -/
theorem countP_insert (m : ExtTreeMap κ β) (k : κ) (v : β) (p : κ × β → Bool) :
    (m.insert k v).toList.countP p + (m[k]?.any fun old => p (k, old)).toNat =
      m.toList.countP p + (p (k, v)).toNat := by
  have hnew := (toList_insert_perm m k v).countP_eq p
  have hitem : (if p (k, v) = true then 1 else 0) = (p (k, v)).toNat := by
    cases p (k, v) <;> rfl
  rw [List.countP_cons, hitem] at hnew
  have hold := countP_erase m k p
  omega

/-! ## Adding up what a map has -/

/-- The sum of the numbers in a map. -/
def total (m : ExtTreeMap κ Nat) : Nat :=
  m.foldl (fun total _ count => total + count) 0

omit [Ord κ] [Std.TransOrd κ] [Std.LawfulEqOrd κ] in
theorem foldl_add (items : List (κ × Nat)) (before : Nat) :
    items.foldl (fun total item => total + item.2) before =
      before + items.foldl (fun total item => total + item.2) 0 := by
  induction items generalizing before with
  | nil => rfl
  | cons item items ih =>
      rw [List.foldl_cons, List.foldl_cons, ih, ih (0 + item.2)]
      omega

omit [Std.LawfulEqOrd κ] in
theorem total_eq_of_perm {m : ExtTreeMap κ Nat} {items : List (κ × Nat)}
    (h : m.toList.Perm items) : total m = items.foldl (fun total item => total + item.2) 0 := by
  rw [total, ExtTreeMap.foldl_eq_foldl_toList]
  exact h.foldl_eq' (fun _ _ _ _ _ => Nat.add_right_comm ..) 0

theorem total_insert (m : ExtTreeMap κ Nat) (k : κ) (v : Nat) :
    total (m.insert k v) + m[k]?.getD 0 = total m + v := by
  have hnew := total_eq_of_perm (toList_insert_perm m k v)
  rw [List.foldl_cons, foldl_add] at hnew
  cases hold : m[k]? with
  | none =>
      rw [erase_eq_self hold, ← total_eq_of_perm (.refl _)] at hnew
      rw [hnew, Option.getD_none]
      omega
  | some old =>
      have hold := total_eq_of_perm (toList_insert_perm m k old)
      rw [insert_eq_self ‹_›, List.foldl_cons, foldl_add] at hold
      rw [hnew, hold, Option.getD_some]
      omega

theorem alter_eq_insert (m : ExtTreeMap κ β) (k : κ) (f : Option β → β) :
    m.alter k (fun old => some (f old)) = m.insert k (f m[k]?) := by
  classical
  apply ExtTreeMap.ext_getElem?
  intro k'
  rw [getElem?_insert_eq_ite, ExtTreeMap.getElem?_alter]
  simp only [Std.compare_eq_iff_eq]

/-- A map made from items with distinct keys has their sum. -/
theorem total_ofList_map {α : Type} {key : α → κ} {items : List (α × Nat)}
    (hnodup : (items.map fun item => key item.1).Nodup) :
    total (ExtTreeMap.ofList (items.map fun item => (key item.1, item.2))) =
      items.foldl (fun total item => total + item.2) 0 := by
  classical
  have hperm : (ExtTreeMap.ofList (items.map fun item => (key item.1, item.2))).toList.Perm
      (items.map fun item => (key item.1, item.2)) := by
    have hitems : (items.map fun item => (key item.1, item.2)).Nodup :=
      List.Nodup.of_map Prod.fst (by rwa [List.map_map])
    rw [List.perm_ext_iff_of_nodup (nodup_toList _) hitems]
    rintro ⟨k, v⟩
    have hfound : (ExtTreeMap.ofList (items.map fun item => (key item.1, item.2)))[k]? = some v ↔
        ∃ item ∈ items, key item.1 = k ∧ item.2 = v := getElem?_ofList_map_eq_some_iff hnodup
    rw [ExtTreeMap.mem_toList_iff_getElem?_eq_some, hfound]
    simp
  rw [total_eq_of_perm hperm, List.foldl_map]

end Counting

/-! ## The statistics of a cache -/

theorem ResourceClass.tag_injective : Function.Injective ResourceClass.tag := by
  intro a b h
  have hlist : a.tag.toList = b.tag.toList := congrArg String.toList h
  cases a <;> cases b <;> simp [tag, rowCountTag] at hlist ⊢
  exact String.toList_inj.mp hlist

namespace AccessCache

variable {α : Type}

/-- Every slot is counted under its class. -/
theorem total_slotsByClass (c : AccessCache α) : total c.slotsByClass = c.slots.size := by
  have hfold (items : List (CacheKey × CacheSlot α)) (counts : ExtTreeMap ResourceClass Nat) :
      total (items.foldl
        (fun counts item => counts.alter item.1.cls fun n => some (n.getD 0 + 1)) counts) =
      total counts + items.length := by
    induction items generalizing counts with
    | nil => rfl
    | cons item items ih =>
        have hadd := total_insert counts item.1.cls (counts[item.1.cls]?.getD 0 + 1)
        rw [List.foldl_cons, ih, alter_eq_insert counts _ fun n => n.getD 0 + 1,
          List.length_cons]
        omega
  rw [slotsByClass, ExtTreeMap.foldl_eq_foldl_toList, hfold, ExtTreeMap.length_toList]
  exact Nat.zero_add _

/-- No two of the classes that are counted share a tag. -/
theorem nodup_tags (c : AccessCache α) :
    (c.slotsByClass.toList.map fun entry => entry.1.tag).Nodup := by
  have hkeys := c.slotsByClass.nodup_keys.map ResourceClass.tag_injective
  rwa [← ExtTreeMap.map_fst_toList_eq_keys, List.map_map] at hkeys

theorem entries_stats (c : AccessCache α) : c.stats.entries = c.slots.size := by
  rw [← total_slotsByClass]
  exact (total_ofList_map c.nodup_tags).trans (total_eq_of_perm (.refl _)).symm

/-- The statistics count at least the entries. -/
theorem size_le_entries_stats (c : AccessCache α) : c.size ≤ c.stats.entries := by
  rw [entries_stats, ← ExtTreeMap.length_toList]
  exact List.countP_le_length

end AccessCache

end ControlPlane
