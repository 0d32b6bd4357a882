/-
# Slots in two levels

A cache can keep its slots by class, and within a class by subject. A class stands in such a table
as long as it has slots: it comes with its first slot and goes with its last. The slots of a cache
then determine the table, so that every operation on the slots is one on the table, and what a
table says of itself agrees with what the cache says. In the end no script can tell a cache from
one that keeps a table.

Only purging has to work for this. It goes through the subjects of every class first, which can
leave classes without slots, and takes these out afterwards.
-/

import ControlPlane.Proofs.Cache.Script
import ControlPlane.Proofs.Cache.Tags
import Mathlib.Data.List.Flatten

namespace ControlPlane

open Std (ExtTreeMap ExtTreeSet)

/-! ## Empty maps -/

section Maps

variable {κ β : Type} [Ord κ] [Std.TransOrd κ]

theorem isEmpty_eq_false_iff {m : ExtTreeMap κ β} :
    m.isEmpty = false ↔ ∃ (k : κ) (v : β), m[k]? = some v := by
  rw [← Bool.not_eq_true, ExtTreeMap.isEmpty_iff, ExtTreeMap.eq_empty_iff_forall_not_mem]
  simp only [ExtTreeMap.mem_iff_isSome_getElem?, Option.isSome_iff_exists, not_forall, not_not]

/-- Taking out what is empty takes no item away. -/
theorem bind_filter_isEmpty (m? : Option (ExtTreeMap κ β)) (k : κ) :
    ((m?.filter fun m => !m.isEmpty).bind fun m => m[k]?) = m?.bind fun m => m[k]? := by
  cases m? with
  | none => rfl
  | some m =>
      rw [Option.filter_some]
      split
      · rfl
      · next hempty =>
        obtain rfl : m = ∅ := ExtTreeMap.isEmpty_iff.mp (by simpa using hempty)
        rw [Option.bind_none, Option.bind_some, ExtTreeMap.getElem?_empty]

end Maps

/-! ## Tables -/

variable {α : Type}

theorem CacheKey.eq_iff {key other : CacheKey} :
    key = other ↔ key.cls = other.cls ∧ key.subject = other.subject := by
  cases key
  cases other
  rw [CacheKey.mk.injEq]

/-- Slots by class and subject. -/
abbrev SlotTable (α : Type) := ExtTreeMap ResourceClass (ExtTreeMap String (CacheSlot α))

namespace SlotTable

/-- The slot of a key. -/
def slot? (t : SlotTable α) (key : CacheKey) : Option (CacheSlot α) :=
  t[key.cls]?.bind fun subjects => subjects[key.subject]?

/-- Every class that is there has slots. -/
def NoEmptyClass (t : SlotTable α) : Prop :=
  ∀ ⦃cls : ResourceClass⦄ ⦃subjects : ExtTreeMap String (CacheSlot α)⦄,
    t[cls]? = some subjects → subjects.isEmpty = false

/-- Set the slot of a key. The class of the key is created with it if need be. -/
def put (t : SlotTable α) (key : CacheKey) (slot : CacheSlot α) : SlotTable α :=
  t.insert key.cls ((t.getD key.cls ∅).insert key.subject slot)

/-- Go through the subjects of every class, drop the slots that are not to be kept and count the
entries in them; then drop the classes that have no slots left. -/
def sweep (t : SlotTable α) (keep : CacheSlot α → Bool) : Nat × SlotTable α :=
  (total (t.map fun _ subjects =>
      subjects.toList.countP fun item => item.2.entry.isSome && !keep item.2),
    (t.map fun _ subjects => subjects.filter fun _ slot => keep slot).filter
      fun _ subjects => !subjects.isEmpty)

/-- How many slots each class has, under the tags of the classes. -/
def slotsByTag (t : SlotTable α) : ExtTreeMap String Nat :=
  .ofList (t.toList.map fun entry => (entry.1.tag, entry.2.size))

/-- All slots with their keys. -/
def items (t : SlotTable α) : List (CacheKey × CacheSlot α) :=
  t.toList.flatMap fun entry => entry.2.toList.map fun item => (⟨entry.1, item.1⟩, item.2)

/-! ## Tables with the same slots -/

variable {t t' : SlotTable α}

/-- A class that is there has a slot. -/
theorem NoEmptyClass.exists_slot (h : t.NoEmptyClass) {cls : ResourceClass}
    {subjects : ExtTreeMap String (CacheSlot α)} (hcls : t[cls]? = some subjects) :
    ∃ subject slot, t.slot? ⟨cls, subject⟩ = some slot := by
  obtain ⟨subject, slot, hslot⟩ := isEmpty_eq_false_iff.mp (h hcls)
  exact ⟨subject, slot, by rw [slot?, hcls, Option.bind_some, hslot]⟩

/-- Of two tables with the same slots the second has every class of the first. -/
theorem NoEmptyClass.getElem?_eq_some (h : t.NoEmptyClass)
    (hslots : ∀ key, t.slot? key = t'.slot? key) {cls : ResourceClass}
    {subjects : ExtTreeMap String (CacheSlot α)} (hcls : t[cls]? = some subjects) :
    t'[cls]? = some subjects := by
  obtain ⟨subject, slot, hslot⟩ := h.exists_slot hcls
  cases hcls' : t'[cls]? with
  | none =>
      rw [hslots, slot?, hcls', Option.bind_none] at hslot
      cases hslot
  | some subjects' =>
      refine congrArg some (ExtTreeMap.ext_getElem? fun {other} => ?_)
      have hother := hslots ⟨cls, other⟩
      rw [slot?, slot?, hcls, hcls'] at hother
      exact hother.symm

/-- The slots of a table determine it. -/
theorem eq_of_slot? (h : t.NoEmptyClass) (h' : t'.NoEmptyClass)
    (hslots : ∀ key, t.slot? key = t'.slot? key) : t = t' := by
  refine ExtTreeMap.ext_getElem? fun {cls} => ?_
  cases hcls : t[cls]? with
  | some subjects => exact (h.getElem?_eq_some hslots hcls).symm
  | none =>
      cases hcls' : t'[cls]? with
      | none => rfl
      | some subjects' =>
          rw [h'.getElem?_eq_some (fun key => (hslots key).symm) hcls'] at hcls
          cases hcls

/-! ## Operations on tables -/

theorem slot?_put (t : SlotTable α) (key other : CacheKey) (slot : CacheSlot α) :
    (t.put key slot).slot? other = if key = other then some slot else t.slot? other := by
  simp only [slot?, put, getElem?_insert_eq_ite, CacheKey.eq_iff]
  by_cases hcls : key.cls = other.cls
  · rw [if_pos hcls, Option.bind_some, getElem?_insert_eq_ite, ExtTreeMap.getD_eq_getD_getElem?,
      hcls]
    cases t[other.cls]? <;> simp
  · rw [if_neg hcls, if_neg fun heq => hcls heq.1]

theorem NoEmptyClass.put (h : t.NoEmptyClass) (key : CacheKey) (slot : CacheSlot α) :
    (t.put key slot).NoEmptyClass := by
  intro cls subjects hcls
  rw [SlotTable.put, getElem?_insert_eq_ite] at hcls
  split at hcls
  · cases hcls
    exact isEmpty_eq_false_iff.mpr ⟨key.subject, slot, ExtTreeMap.getElem?_insert_self⟩
  · exact h hcls

theorem slot?_erase (t : SlotTable α) (cls : ResourceClass) (key : CacheKey) :
    slot? (t.erase cls) key = if key.cls = cls then none else t.slot? key := by
  rw [slot?, ExtTreeMap.getElem?_erase]
  by_cases hcls : key.cls = cls
  · simp [hcls]
  · have hne : compare cls key.cls ≠ .eq := fun heq => hcls (Std.compare_eq_iff_eq.mp heq).symm
    rw [if_neg hne, if_neg hcls, slot?]

theorem NoEmptyClass.erase (h : t.NoEmptyClass) (cls : ResourceClass) :
    NoEmptyClass (t.erase cls) := by
  intro other subjects hother
  rw [ExtTreeMap.getElem?_erase] at hother
  split at hother
  · cases hother
  · exact h hother

/-- A sweep keeps the slots that are to be kept. -/
theorem slot?_sweep (t : SlotTable α) (keep : CacheSlot α → Bool) (key : CacheKey) :
    slot? (t.sweep keep).2 key = (t.slot? key).filter keep := by
  rw [slot?, sweep, ExtTreeMap.getElem?_filter', bind_filter_isEmpty, ExtTreeMap.getElem?_map,
    slot?]
  cases t[key.cls]? with
  | none => rfl
  | some subjects => exact ExtTreeMap.getElem?_filter'

/-- No class without slots remains, whatever was there before. -/
theorem noEmptyClass_sweep (t : SlotTable α) (keep : CacheSlot α → Bool) :
    NoEmptyClass (t.sweep keep).2 := by
  intro cls subjects hcls
  rw [sweep, ExtTreeMap.getElem?_filter', Option.filter_eq_some_iff] at hcls
  simpa using hcls.2

/-! ## What a table has -/

theorem mem_items_iff {key : CacheKey} {slot : CacheSlot α} :
    (key, slot) ∈ t.items ↔ t.slot? key = some slot := by
  simp only [items, slot?, List.mem_flatMap, List.mem_map, Prod.exists, Prod.mk.injEq,
    ExtTreeMap.mem_toList_iff_getElem?_eq_some, Option.bind_eq_some_iff]
  constructor
  · rintro ⟨cls, subjects, hcls, subject, _, hslot, rfl, rfl⟩
    exact ⟨subjects, hcls, hslot⟩
  · rintro ⟨subjects, hcls, hslot⟩
    exact ⟨key.cls, subjects, hcls, key.subject, slot, hslot, rfl, rfl⟩

theorem nodup_items (t : SlotTable α) : t.items.Nodup := by
  rw [items, List.nodup_flatMap]
  constructor
  · intro entry _
    refine (nodup_toList entry.2).map fun item item' heq => ?_
    simp only [Prod.mk.injEq, CacheKey.mk.injEq, true_and] at heq
    exact Prod.ext heq.1 heq.2
  · refine ExtTreeMap.distinct_keys_toList.imp fun {entry entry'} hne => ?_
    -- items of different classes have different keys
    refine List.disjoint_left.mpr fun item hitem hitem' => ?_
    obtain ⟨_, -, rfl⟩ := List.mem_map.mp hitem
    obtain ⟨_, -, heq⟩ := List.mem_map.mp hitem'
    have hcls : entry'.1 = entry.1 := congrArg (·.1.cls) heq
    exact hne (Std.compare_eq_iff_eq.mpr hcls.symm)

/-- Items are counted class by class. -/
theorem countP_items (t : SlotTable α) (p : CacheKey × CacheSlot α → Bool) :
    t.items.countP p =
      total (t.map fun cls subjects =>
        subjects.toList.countP fun item => p (⟨cls, item.1⟩, item.2)) := by
  rw [total_eq_of_perm (.refl _), ExtTreeMap.toList_map, List.foldl_map, items]
  induction t.toList using List.reverseRecOn with
  | nil => rfl
  | append_singleton entries entry ih =>
      rw [List.flatMap_append, List.countP_append, ih, List.foldl_concat, List.flatMap_singleton,
        List.countP_map]
      rfl

end SlotTable

/-! ## The table of a cache -/

namespace AccessCache

variable {c : AccessCache α} {key : CacheKey}

/-- The slots of one class. -/
def subjectsOf (c : AccessCache α) (cls : ResourceClass) : ExtTreeMap String (CacheSlot α) :=
  .ofList ((c.slots.toList.filter fun item => item.1.cls == cls).map fun item =>
    (item.1.subject, item.2))

/-- The slots of a cache in two levels. -/
def table (c : AccessCache α) : SlotTable α :=
  c.slotsByClass.map fun cls _ => c.subjectsOf cls

theorem pairwise_subjects_ne (c : AccessCache α) (cls : ResourceClass) :
    (c.slots.toList.filter fun item => item.1.cls == cls).Pairwise
      fun item item' => item.1.subject ≠ item'.1.subject := by
  refine (ExtTreeMap.distinct_keys_toList.filter _).imp_of_mem ?_
  intro item item' hitem hitem' hne hsubject
  have hcls : item.1.cls = cls := beq_iff_eq.mp (List.mem_filter.mp hitem).2
  have hcls' : item'.1.cls = cls := beq_iff_eq.mp (List.mem_filter.mp hitem').2
  have hkey := CacheKey.eq_iff.mpr ⟨hcls.trans hcls'.symm, hsubject⟩
  exact hne (Std.compare_eq_iff_eq.mpr hkey)

theorem getElem?_subjectsOf (c : AccessCache α) (cls : ResourceClass) (subject : String) :
    (c.subjectsOf cls)[subject]? = c.slots[(⟨cls, subject⟩ : CacheKey)]? := by
  apply Option.ext
  intro slot
  rw [subjectsOf, getElem?_ofList_map_eq_some_iff (List.pairwise_map.mpr
    (c.pairwise_subjects_ne cls)), ← ExtTreeMap.mem_toList_iff_getElem?_eq_some]
  constructor
  · rintro ⟨⟨⟨cls', subject'⟩, slot'⟩, hitem, rfl, rfl⟩
    obtain ⟨hmem, hcls⟩ := List.mem_filter.mp hitem
    obtain rfl : cls' = cls := beq_iff_eq.mp hcls
    exact hmem
  · intro hmem
    exact ⟨_, List.mem_filter.mpr ⟨hmem, beq_self_eq_true cls⟩, rfl, rfl⟩

theorem size_subjectsOf (c : AccessCache α) (cls : ResourceClass) :
    (c.subjectsOf cls).size = c.slotCount cls := by
  rw [subjectsOf, ExtTreeMap.size_ofList, List.length_map, slotCount, List.countP_eq_length_filter]
  refine List.pairwise_map.mpr ((c.pairwise_subjects_ne cls).imp fun hne heq => hne ?_)
  exact Std.compare_eq_iff_eq.mp heq

theorem subjectsOf_perm (c : AccessCache α) (cls : ResourceClass) :
    (c.subjectsOf cls).toList.Perm
      ((c.slots.toList.filter fun item => item.1.cls == cls).map fun item =>
        (item.1.subject, item.2)) := by
  classical
  have hnodup := List.pairwise_map.mpr (c.pairwise_subjects_ne cls)
  have hitems := List.Nodup.of_map (l := (c.slots.toList.filter fun item => item.1.cls == cls).map
    fun item => (item.1.subject, item.2)) Prod.fst (by rwa [List.map_map])
  rw [List.perm_ext_iff_of_nodup (nodup_toList _) hitems]
  rintro ⟨subject, slot⟩
  have hfound : (c.subjectsOf cls)[subject]? = some slot ↔ _ :=
    getElem?_ofList_map_eq_some_iff hnodup
  rw [ExtTreeMap.mem_toList_iff_getElem?_eq_some, hfound]
  simp

theorem getElem?_table (c : AccessCache α) (cls : ResourceClass) :
    c.table[cls]? = if c.slotCount cls = 0 then none else some (c.subjectsOf cls) := by
  rw [table, ExtTreeMap.getElem?_map, getElem?_slotsByClass]
  split <;> rfl

/-- The table has the slots of the cache. -/
@[simp]
theorem slot?_table (c : AccessCache α) (key : CacheKey) : c.table.slot? key = c.slots[key]? := by
  rw [SlotTable.slot?, getElem?_table]
  split
  · next hzero =>
    cases hslot : c.slots[key]? with
    | none => rfl
    | some slot =>
        have hpositive : 0 < c.slotCount key.cls :=
          slotCount_pos_iff.mpr ⟨key.subject, slot, hslot⟩
        exact absurd hzero (Nat.ne_of_gt hpositive)
  · exact getElem?_subjectsOf c key.cls key.subject

theorem noEmptyClass_table (c : AccessCache α) : c.table.NoEmptyClass := by
  intro cls subjects hcls
  rw [getElem?_table] at hcls
  split at hcls
  · cases hcls
  · next hsome =>
    cases hcls
    obtain ⟨subject, slot, hslot⟩ := slotCount_pos_iff.mp (Nat.pos_of_ne_zero hsome)
    exact isEmpty_eq_false_iff.mpr
      ⟨subject, slot, (getElem?_subjectsOf c cls subject).trans hslot⟩

/-- It is the only table that does. -/
theorem eq_table {t : SlotTable α} (h : t.NoEmptyClass)
    (hslots : ∀ key, t.slot? key = c.slots[key]?) : t = c.table :=
  SlotTable.eq_of_slot? h c.noEmptyClass_table fun key =>
    (hslots key).trans (c.slot?_table key).symm

/-- A table with the slots of a cache has them as its items. -/
theorem items_perm {t : SlotTable α} (hslots : ∀ key, t.slot? key = c.slots[key]?) :
    t.items.Perm c.slots.toList := by
  classical
  rw [List.perm_ext_iff_of_nodup t.nodup_items (nodup_toList _)]
  rintro ⟨key, slot⟩
  rw [SlotTable.mem_items_iff, hslots, ExtTreeMap.mem_toList_iff_getElem?_eq_some]

/-- The slots of a class as they stand in the table. -/
theorem getD_table (c : AccessCache α) (cls : ResourceClass) :
    c.table.getD cls ∅ = c.subjectsOf cls := by
  refine ExtTreeMap.ext_getElem? fun {subject} => ?_
  have hslot := c.slot?_table ⟨cls, subject⟩
  rw [← getElem?_subjectsOf, SlotTable.slot?] at hslot
  rw [← hslot, ExtTreeMap.getD_eq_getD_getElem?]
  cases c.table[cls]? <;> simp

/-- The statistics count the classes of the table. -/
theorem slotsByTag_table (c : AccessCache α) : c.table.slotsByTag = c.slotsByTag := by
  have hsizes : c.table.map (fun _ subjects => subjects.size) = c.slotsByClass := by
    refine ExtTreeMap.ext_getElem? fun {cls} => ?_
    rw [ExtTreeMap.getElem?_map, getElem?_table, getElem?_slotsByClass]
    split
    · rfl
    · rw [Option.map_some, size_subjectsOf]
  rw [slotsByTag, ← hsizes, ExtTreeMap.toList_map, List.map_map]
  rfl

theorem size_eq_countP_items (c : AccessCache α) :
    c.size = c.table.items.countP fun item => item.2.isComputing || item.2.entry.isSome :=
  ((items_perm c.slot?_table).countP_eq _).symm

/-! ## Operations on the table -/

theorem table_withSlot (c : AccessCache α) (key : CacheKey) (slot : CacheSlot α) :
    (c.withSlot key slot).table = c.table.put key slot := by
  refine (eq_table (c.noEmptyClass_table.put key slot) fun other => ?_).symm
  rw [SlotTable.slot?_put, slot?_table, getElem?_slots_withSlot]

theorem table_invalidateClass (c : AccessCache α) (m : Metrics) (cls : ResourceClass) :
    (c.invalidateClass m cls).2.1.table = c.table.erase cls := by
  refine (eq_table (c.noEmptyClass_table.erase cls) fun key => ?_).symm
  rw [SlotTable.slot?_erase, slot?_table, invalidateClass, slots_retain]
  by_cases hcls : key.cls = cls
  · rw [if_pos hcls]
    cases c.slots[key]? <;> simp [hcls]
  · rw [if_neg hcls]
    cases c.slots[key]? <;> simp [Option.filter, hcls]

theorem table_of_slots_eq_empty (h : c.slots = ∅) : c.table = ∅ := by
  refine (eq_table (fun cls subjects hcls => ?_) fun key => ?_).symm
  · rw [ExtTreeMap.getElem?_empty] at hcls
    cases hcls
  · rw [SlotTable.slot?, ExtTreeMap.getElem?_empty, h, ExtTreeMap.getElem?_empty, Option.bind_none]

theorem table_invalidateAll (c : AccessCache α) (m : Metrics) :
    (c.invalidateAll m).2.1.table = ∅ := by
  refine table_of_slots_eq_empty (ExtTreeMap.ext_getElem? fun {key} => ?_)
  rw [invalidateAll, slots_retain, ExtTreeMap.getElem?_empty]
  cases c.slots[key]? <;> rfl

theorem any_subjectsOf (c : AccessCache α) (cls : ResourceClass) :
    (c.subjectsOf cls).toList.any (·.2.isComputing) = c.holdsAny (·.cls == cls) := by
  rw [(c.subjectsOf_perm cls).any_eq, List.any_map, List.any_filter, holdsAny]
  exact congrArg _ (funext fun item => Bool.and_comm ..)

/-- The entries of a class that is invalidated are those in its slots. -/
theorem countP_subjectsOf (c : AccessCache α) (m : Metrics) (cls : ResourceClass) :
    (c.subjectsOf cls).toList.countP (·.2.entry.isSome) = (c.invalidateClass m cls).1 := by
  rw [(c.subjectsOf_perm cls).countP_eq, List.countP_map, List.countP_filter, invalidateClass,
    retain, entryCount, ExtTreeMap.toList_filter, List.countP_filter]
  refine List.countP_congr fun item _ => ?_
  simp

theorem any_items (c : AccessCache α) :
    c.table.items.any (·.2.isComputing) = c.holdsAny fun _ => true := by
  rw [(items_perm c.slot?_table).any_eq, holdsAny]
  exact congrArg _ (funext fun item => (Bool.and_true _).symm)

theorem countP_items_invalidateAll (c : AccessCache α) (m : Metrics) :
    c.table.items.countP (·.2.entry.isSome) = (c.invalidateAll m).1 := by
  rw [(items_perm c.slot?_table).countP_eq, invalidateAll, retain, entryCount,
    ExtTreeMap.toList_filter, List.countP_filter]
  simp

/-- A purge is a sweep of any table that has the slots. -/
theorem sweep_eq {t : SlotTable α} (hslots : ∀ key, t.slot? key = c.slots[key]?) (m : Metrics)
    (now : Tick) :
    t.sweep (c.survivesPurge now) = ((c.purge m now).1, (c.purge m now).2.1.table) := by
  refine Prod.ext ?_ (eq_table (t.noEmptyClass_sweep _) fun key => ?_)
  · have hcount := t.countP_items fun item =>
      item.2.entry.isSome && !c.survivesPurge now item.2
    rw [(items_perm hslots).countP_eq] at hcount
    rw [purge, retain, entryCount, ExtTreeMap.toList_filter, List.countP_filter]
    exact hcount.symm
  · rw [SlotTable.slot?_sweep, hslots, purge, slots_retain]

end AccessCache

/-! ## A cache that keeps a table -/

/-- A cache that keeps its slots in a table, with the clock it reads. -/
structure LayeredCache (α : Type) where
  settings : CacheSettings
  table : SlotTable α := ∅
  now : Tick

namespace LayeredCache

def isHeld (l : LayeredCache α) (key : CacheKey) : Bool :=
  (l.table.slot? key).any (·.isComputing)

/-- The value that may be served for a key now. -/
def served? (l : LayeredCache α) (key : CacheKey) : Option α :=
  (((l.table.slot? key).bind (·.entry)).filter fun entry =>
    entry.isLive l.now l.settings.maxAge).map (·.value)

/-- Whether a purge passes over a slot. -/
def survivesPurge (l : LayeredCache α) (slot : CacheSlot α) : Bool :=
  slot.isComputing || slot.entry.any fun entry => entry.isLive l.now l.settings.maxAge

/-- The cache with the slot of a key as given. -/
def put (l : LayeredCache α) (key : CacheKey) (slot : CacheSlot α) : LayeredCache α :=
  { l with table := l.table.put key slot }

/-- The operations of a cache, level by level. -/
def machine {ε : Type} : CacheMachine α ε (LayeredCache α) where
  lookup key l :=
    if l.isHeld key then none
    else
      match l.served? key with
      | some value => some (some value, l)
      | none =>
          some (none, l.put key { (l.table.slot? key).getD {} with isComputing := true })
  settle key result l :=
    match l.table.slot? key with
    | none => l
    | some slot =>
        l.put key
          { entry :=
              match result with
              | .ok value => some (.store value l.now l.settings.ttl)
              | .error _ => slot.entry }
  peek key l := if l.isHeld key then none else some (l.served? key)
  invalidateClass cls l :=
    let subjects := (l.table.getD cls ∅).toList
    if subjects.any (·.2.isComputing) then none
    else
      some (subjects.countP (·.2.entry.isSome), { l with table := l.table.erase cls })
  invalidateAll l :=
    if l.table.items.any (·.2.isComputing) then none
    else some (l.table.items.countP (·.2.entry.isSome), { l with table := ∅ })
  purge l :=
    let (dropped, table) := l.table.sweep l.survivesPurge
    (dropped, { l with table })
  moveClock move l := { l with now := move l.now }

end LayeredCache

/-- The same cache with its slots in a table. -/
def CacheState.layered (s : CacheState α) : LayeredCache α where
  settings := s.cache.settings
  table := s.cache.table
  now := s.now

/-- A cache and the same cache with a table, while some keys are being computed. -/
structure LaidOut (keys : ExtTreeSet CacheKey) (s : CacheState α) (l : LayeredCache α) : Prop where
  layered : l = s.layered
  isHeld (key : CacheKey) (hkey : key ∈ keys) : s.cache.isHeld key = true

namespace LaidOut

variable {ε : Type} {keys : ExtTreeSet CacheKey} {s : CacheState α} {l : LayeredCache α}

theorem isHeld_eq (h : LaidOut keys s l) (key : CacheKey) : l.isHeld key = s.cache.isHeld key := by
  rw [h.layered, LayeredCache.isHeld, CacheState.layered, AccessCache.slot?_table]
  rfl

theorem table_eq (h : LaidOut keys s l) : l.table = s.cache.table := by
  rw [h.layered]
  rfl

theorem served?_eq (h : LaidOut keys s l) (key : CacheKey) :
    l.served? key = s.cache.peek key s.now := by
  rw [h.layered, LayeredCache.served?, CacheState.layered, AccessCache.slot?_table]
  rfl

/-- A lookup in vain holds the slot on both sides. -/
theorem hold (h : LaidOut keys s l) (key : CacheKey) (m : Metrics) :
    LaidOut (keys.insert key) { s with cache := s.cache.hold key, metrics := m }
      (l.put key { (l.table.slot? key).getD {} with isComputing := true }) where
  layered := by
    rw [h.layered, CacheState.layered, LayeredCache.put, AccessCache.slot?_table,
      CacheState.layered, AccessCache.hold_eq_withSlot, AccessCache.table_withSlot]
    rfl
  isHeld other hother := by
    rw [AccessCache.isHeld_hold]
    rcases ExtTreeSet.mem_insert.mp hother with hkey | hother
    · rw [decide_eq_true (Std.compare_eq_iff_eq.mp hkey), Bool.true_or]
    · rw [h.isHeld other hother, Bool.or_true]

theorem settle {key : CacheKey} (hfree : key ∉ keys) (h : LaidOut (keys.insert key) s l)
    (result : Except ε α) :
    LaidOut keys (AccessCache.machine.settle key result s)
      (LayeredCache.machine.settle key result l) where
  layered := by
    have hheld := h.isHeld key ExtTreeSet.mem_insert_self
    obtain ⟨slot, hslot, -⟩ := (Option.any_eq_true _ _).mp hheld
    simp only [LayeredCache.machine, AccessCache.machine, h.layered, CacheState.layered,
      AccessCache.slot?_table, hslot, LayeredCache.put, AccessCache.settle_eq_withSlot hslot,
      AccessCache.table_withSlot]
    cases result <;> rfl
  isHeld other hother := by
    have hne : key ≠ other := fun heq => hfree (heq ▸ hother)
    have hheld := h.isHeld other (ExtTreeSet.mem_insert.mpr (.inr hother))
    refine (AccessCache.isHeld_settle ..).trans ?_
    rw [hheld, decide_eq_false hne]
    rfl

/-- Nothing that is held is dropped, and the same is left on both sides. -/
theorem drop (h : LaidOut keys s l) {c : AccessCache α} (m : Metrics) {table : SlotTable α}
    (hsettings : c.settings = s.cache.settings) (htable : table = c.table)
    (hheld : ∀ key ∈ keys, c.isHeld key = true) :
    LaidOut keys { s with cache := c, metrics := m } { l with table } where
  layered := by
    rw [h.layered, CacheState.layered, CacheState.layered, htable, hsettings]
  isHeld := hheld

end LaidOut

/-- A cache cannot be told from one that keeps its slots in a table. -/
theorem AccessCache.machine_layered {ε : Type} :
    (AccessCache.machine (α := α) (ε := ε)).Simulates LaidOut LayeredCache.machine where
  lookup {keys s l} h key := by
    simp only [AccessCache.machine, LayeredCache.machine, h.isHeld_eq, h.served?_eq]
    by_cases hheld : s.cache.isHeld key = true
    · rw [if_pos hheld, if_pos hheld]
      exact .none
    · rw [if_neg hheld, if_neg hheld]
      cases hpeek : s.cache.peek key s.now with
      | some value =>
          rw [lookup_of_peek_eq_some hpeek]
          exact .some ⟨rfl, h.layered, h.isHeld⟩
      | none =>
          rw [lookup_of_peek_eq_none hpeek]
          exact .some ⟨rfl, fun hkey => hheld (h.isHeld key hkey), h.hold key _⟩
  settle hfree h result := h.settle hfree result
  peek {keys s l} h key := by
    simp only [AccessCache.machine, LayeredCache.machine, h.isHeld_eq, h.served?_eq]
  invalidateClass {keys s l} h cls := by
    simp only [AccessCache.machine, LayeredCache.machine, h.table_eq, getD_table, any_subjectsOf,
      s.cache.countP_subjectsOf s.metrics]
    by_cases hwaits : s.cache.holdsAny (·.cls == cls) = true
    · rw [if_pos hwaits, if_pos hwaits]
      exact .none
    · rw [if_neg hwaits, if_neg hwaits]
      refine .some ⟨rfl, h.drop _ (settings_invalidateClass ..)
        (table_invalidateClass s.cache s.metrics cls).symm fun key hkey => ?_⟩
      -- nothing that is held is of the class, or the operation would wait
      have hheld := h.isHeld key hkey
      have hcls : key.cls ≠ cls := fun hcls =>
        hwaits (holdsAny_eq_true_iff.mpr ⟨key, hheld, beq_iff_eq.mpr hcls⟩)
      rw [isHeld_invalidateClass, hheld, decide_eq_false hcls]
      rfl
  invalidateAll {keys s l} h := by
    simp only [AccessCache.machine, LayeredCache.machine, h.table_eq, any_items,
      s.cache.countP_items_invalidateAll s.metrics]
    by_cases hwaits : s.cache.holdsAny (fun _ => true) = true
    · rw [if_pos hwaits, if_pos hwaits]
      exact .none
    · rw [if_neg hwaits, if_neg hwaits]
      refine .some ⟨rfl, h.drop _ (settings_invalidateAll ..)
        (table_invalidateAll s.cache s.metrics).symm fun key hkey => ?_⟩
      exact absurd (holdsAny_eq_true_iff.mpr ⟨key, h.isHeld key hkey, rfl⟩) hwaits
  purge {keys s l} h := by
    have hsurvives : l.survivesPurge = s.cache.survivesPurge s.now := by
      rw [h.layered]
      rfl
    simp only [AccessCache.machine, LayeredCache.machine, h.table_eq, hsurvives,
      sweep_eq s.cache.slot?_table s.metrics]
    exact ⟨rfl, h.drop _ (settings_purge ..) rfl fun key hkey =>
      (isHeld_purge ..).trans (h.isHeld key hkey)⟩
  moveClock {keys s l} h move := by
    obtain ⟨rfl, hheld⟩ := h
    exact ⟨rfl, hheld⟩

/-- Every script runs alike on a new cache and on one that keeps its slots in a table: it waits
for itself on both or on neither, and otherwise gets the same answers. Afterwards the table is
that of the cache. -/
theorem AccessCache.rel_run_layered {ε : Type} (name : String) (settings : CacheSettings)
    (isMetered : Bool) (metrics : Metrics) (now : Tick) (script : CacheScript α ε) :
    Option.Rel (SameRun (LaidOut ∅))
      (script.run machine { cache := { name, settings, isMetered }, metrics, now })
      (script.run LayeredCache.machine { settings, now }) := by
  apply script.rel_run machine_layered
  constructor
  · rw [CacheState.layered, table_of_slots_eq_empty rfl]
  · intro key hkey
    exact absurd hkey ExtTreeSet.not_mem_empty

end ControlPlane
