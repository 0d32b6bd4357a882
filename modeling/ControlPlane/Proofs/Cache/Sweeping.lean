/-
# What a purge leaves

A purge looks at every slot and tells four kinds apart. A slot that a computation holds stays as it
is, whatever it has. Of the others a slot stays if its entry can be served; a slot whose entry
cannot be served goes and counts as dropped; a slot without an entry, as a failed computation
leaves it, goes and counts for nothing. A class goes with its last slot.

So nothing is left that a purge at the same reading would take.
-/

import ControlPlane.Proofs.Cache.Alone
import ControlPlane.Proofs.Cache.Layout

namespace ControlPlane

open Std (ExtTreeMap)

variable {α : Type}

namespace AccessCache

/-- A purge at a reading of the clock leaves one cache of another and tells how many entries it
dropped. -/
structure SweptTo (c : AccessCache α) (now : Tick) (dropped : Nat) (c' : AccessCache α) :
    Prop where
  /-- The entries that were there before and are there no more. -/
  dropped_eq :
    dropped = c.slots.toList.countP fun item =>
      (c.find? item.1).isSome && (c'.find? item.1).isNone
  /-- A slot stays as it is or goes. -/
  slot_of_left {key : CacheKey} {slot : CacheSlot α} :
    c'.slots[key]? = some slot → c.slots[key]? = some slot
  computing_left {key : CacheKey} {slot : CacheSlot α} :
    c.slots[key]? = some slot → slot.isComputing = true → c'.slots[key]? = some slot
  live_left {key : CacheKey} {slot : CacheSlot α} {entry : CacheEntry α} :
    c.slots[key]? = some slot → slot.entry = some entry →
      entry.isLive now c.settings.maxAge = true → c'.slots[key]? = some slot
  live_of_left {key : CacheKey} {slot : CacheSlot α} :
    c'.slots[key]? = some slot → slot.isComputing = false →
      ∃ entry, slot.entry = some entry ∧ entry.isLive now c.settings.maxAge = true
  /-- In two levels this is a sweep of the subjects of each class, then of the classes. -/
  sweep_eq {t : SlotTable α} (hslots : ∀ key, t.slot? key = c.slots[key]?) :
    t.sweep (c.survivesPurge now) = (dropped, c'.table)
  noEmptyClass_left {t : SlotTable α} (hslots : ∀ key, t.slot? key = c.slots[key]?) :
    SlotTable.NoEmptyClass (t.sweep (c.survivesPurge now)).2
  /-- The slots that are left hold entries or are held. -/
  entries_eq_size : c'.stats.entries = c'.size

variable {c : AccessCache α} {m : Metrics} {now : Tick} {key : CacheKey} {slot : CacheSlot α}

theorem survivesPurge_iff :
    c.survivesPurge now slot = true ↔
      slot.isComputing = true
      ∨ ∃ entry, slot.entry = some entry ∧ entry.isLive now c.settings.maxAge = true := by
  rw [survivesPurge, Bool.or_eq_true, Option.any_eq_true]

/-- What is left are the slots that the purge passed over. -/
theorem slots_purge_eq_some_iff :
    (c.purge m now).2.1.slots[key]? = some slot ↔
      c.slots[key]? = some slot ∧ c.survivesPurge now slot = true := by
  rw [purge, slots_retain, Option.filter_eq_some_iff]

/-- An entry of a slot that the purge did not pass over is gone. -/
theorem isNone_find?_purge (hslot : c.slots[key]? = some slot) (hentry : slot.entry.isSome) :
    ((c.purge m now).2.1.find? key).isNone = !c.survivesPurge now slot := by
  rw [find?, purge, slots_retain, hslot, Option.filter_some]
  cases hsurvives : c.survivesPurge now slot with
  | true =>
      obtain ⟨entry, hentry⟩ := Option.isSome_iff_exists.mp hentry
      rw [if_pos rfl, Option.bind_some, hentry]
      rfl
  | false => rfl

theorem purge_fst (c : AccessCache α) (m : Metrics) (now : Tick) :
    (c.purge m now).1 = c.slots.toList.countP fun item =>
      (c.find? item.1).isSome && ((c.purge m now).2.1.find? item.1).isNone := by
  have hdropped : (c.purge m now).1 = c.slots.toList.countP fun item =>
      item.2.entry.isSome && !c.survivesPurge now item.2 := by
    rw [purge, retain, entryCount, ExtTreeMap.toList_filter, List.countP_filter]
  rw [hdropped]
  refine List.countP_congr fun item hitem => ?_
  have hslot := ExtTreeMap.mem_toList_iff_getElem?_eq_some.mp hitem
  have hfind : c.find? item.1 = item.2.entry := by rw [find?, hslot, Option.bind_some]
  rw [hfind]
  cases hentry : item.2.entry.isSome with
  | true => rw [isNone_find?_purge hslot hentry]
  | false => rfl

/-- Where everything is to be kept nothing happens. -/
theorem retain_eq_self {keep : CacheKey → CacheSlot α → Bool}
    (hkeep : ∀ key slot, c.slots[key]? = some slot → keep key slot = true) (m : Metrics) :
    c.retain m keep = (0, c, m) := by
  have hkept : c.slots.filter keep = c.slots := by
    refine ExtTreeMap.ext_getElem? fun {key} => ?_
    rw [ExtTreeMap.getElem?_filter']
    cases hslot : c.slots[key]? with
    | none => rfl
    | some slot => rw [Option.filter_some, if_pos (hkeep key slot hslot)]
  have hdropped : entryCount (c.slots.filter fun key slot => !keep key slot) = 0 := by
    rw [entryCount, ExtTreeMap.toList_filter, List.countP_filter, List.countP_eq_zero]
    intro item hitem
    have hslot := ExtTreeMap.mem_toList_iff_getElem?_eq_some.mp hitem
    simp [hkeep item.1 item.2 hslot]
  rw [retain, hkept, hdropped]
  rfl

/-- A purge leaves nothing to a second one. -/
theorem purge_purge (c : AccessCache α) (m m' : Metrics) (now : Tick) :
    (c.purge m now).2.1.purge m' now = (0, (c.purge m now).2.1, m') := by
  refine retain_eq_self (fun key slot hslot => ?_) m'
  have hsurvives := (slots_purge_eq_some_iff.mp hslot).2
  rwa [survivesPurge, settings_purge]

/-- After a purge every slot is one that is counted. -/
theorem entries_stats_purge (c : AccessCache α) (m : Metrics) (now : Tick) :
    (c.purge m now).2.1.stats.entries = (c.purge m now).2.1.size := by
  rw [entries_stats, size, ← ExtTreeMap.length_toList, eq_comm, List.countP_eq_length]
  intro item hitem
  have hslot := ExtTreeMap.mem_toList_iff_getElem?_eq_some.mp hitem
  obtain hcomputing | ⟨entry, hentry, -⟩ :=
    survivesPurge_iff.mp (slots_purge_eq_some_iff.mp hslot).2
  · rw [hcomputing, Bool.true_or]
  · rw [hentry, Option.isSome_some, Bool.or_true]

theorem sweptTo_purge (c : AccessCache α) (m : Metrics) (now : Tick) :
    c.SweptTo now (c.purge m now).1 (c.purge m now).2.1 where
  dropped_eq := c.purge_fst m now
  slot_of_left hslot := (slots_purge_eq_some_iff.mp hslot).1
  computing_left hslot hcomputing :=
    slots_purge_eq_some_iff.mpr ⟨hslot, survivesPurge_iff.mpr (.inl hcomputing)⟩
  live_left hslot hentry hlive :=
    slots_purge_eq_some_iff.mpr ⟨hslot, survivesPurge_iff.mpr (.inr ⟨_, hentry, hlive⟩)⟩
  live_of_left hslot hfree := by
    have hsurvives := survivesPurge_iff.mp (slots_purge_eq_some_iff.mp hslot).2
    exact hsurvives.resolve_left (by rw [hfree]; exact Bool.false_ne_true)
  sweep_eq hslots := c.sweep_eq hslots m now
  noEmptyClass_left {t} _ := t.noEmptyClass_sweep _
  entries_eq_size := c.entries_stats_purge m now

/-- Purging leaves only slots that can be served or are held. It returns the number of entries it
took away, and leaves no slot that is free without an entry and no class without slots; what it
leaves is as it was. Purging again at the same reading does nothing. -/
theorem purge_leaves_live (c : AccessCache α) (m : Metrics) (now : Tick) :
    let (dropped, c', m') := c.purge m now
    c.SweptTo now dropped c' ∧ c'.purge m' now = (0, c', m') :=
  ⟨c.sweptTo_purge m now, c.purge_purge m _ now⟩

/-- The four kinds of slots; one entry is dropped. -/
example :
    let slots : List (CacheKey × CacheSlot Nat) :=
      [(⟨.identity, "held"⟩, { isComputing := true }),
        (⟨.identity, "served"⟩, { entry := some ⟨1, ⟨0⟩, ⟨50⟩⟩ }),
        (⟨.rowCount "", "failed"⟩, {}),
        (⟨.hostTopology, "expired"⟩, { entry := some ⟨2, ⟨0⟩, ⟨10⟩⟩ })]
    let c : AccessCache Nat := { name := "counts", slots := .ofList slots }
    let (dropped, c', _) := c.purge {} ⟨10⟩
    dropped = 1 ∧ c'.slots.keys = [⟨.identity, "held"⟩, ⟨.identity, "served"⟩] := by
  decide +kernel

end AccessCache

/-- A purge in one section among other callers leaves the same of the cache that the map shows. -/
theorem SharedCache.sweptTo_sweep {ε : Type} {settings : CacheSettings} {w : SharedCache α ε}
    (h : Reaches settings w) (name : String) (n : Nat) (now : Tick) :
    let dropped := w.entryCount (w.inMap fun _ s => w.isSwept now s)
    let w' := (w.detach n (fun _ s => w.isSwept now s) true).recordEvictions dropped
    (w.cache name).SweptTo now dropped (w'.cache name) := by
  intro dropped w'
  obtain ⟨hdropped, hcache⟩ :=
    h.sound.retain_cache name n true (w.spares_isSwept name now) {}
  have hswept := (w.cache name).sweptTo_purge {} now
  rwa [AccessCache.purge, hdropped, hcache] at hswept

end ControlPlane
