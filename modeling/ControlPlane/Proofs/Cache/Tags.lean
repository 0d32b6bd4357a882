/-
# The tags of resource classes

A class is written as a tag. A text that is read as a class is the tag of that class, and the tag
of a class is read as the class, with one exception: the row count of the table without a name is
written down when somebody asks for that table, but nothing is read from its tag. What shows
classes by their tags must therefore not rely on reading them. It relies on every class having a
tag of its own: the statistics of a cache count the slots of each class under one key, and the
receipt of an announcement names each class once.
-/

import ControlPlane.Proofs.Cache.Statistics
import ControlPlane.Proofs.Sync.Run

namespace ControlPlane

open Std (ExtTreeMap ExtTreeSet)

/-! ## Reading tags -/

namespace ResourceClass

variable {text : String} {cls : ResourceClass}

/-- The tag of a row count is not the word for another class. -/
theorem tag_rowCount_ne {table : String} (other : ResourceClass) (hother : other.rank < 4)
    (hword : other.tag = text) : (rowCount table).tag ≠ text := by
  intro heq
  rw [tag_injective (hword.trans heq.symm)] at hother
  exact Nat.lt_irrefl _ hother

/-- Only the tag of a class is read as the class. -/
theorem tag_eq_of_ofTag? (h : ofTag? text = some cls) : cls.tag = text := by
  unfold ofTag? at h
  split_ifs at h with hidentity htenants hhosts hprotocol hstart
  · cases h
    exact hidentity.symm
  · cases h
    exact htenants.symm
  · cases h
    exact hhosts.symm
  · cases h
    exact hprotocol.symm
  · dsimp only at h
    split_ifs at h with hnameless
    cases h
    rw [← String.toList_inj, tag, String.toList_append, String.toList_ofList]
    exact (List.prefix_iff_eq_append.mp hstart)

/-- The tag of a class is read as the class, if it names its table. -/
theorem ofTag?_tag (h : cls ≠ .rowCount "") : ofTag? cls.tag = some cls := by
  cases cls with
  | identity => rfl
  | tenantHierarchy => rfl
  | hostTopology => rfl
  | protocolMetadata => rfl
  | rowCount table =>
      have hstart : rowCountTag.toList <+: (rowCount table).tag.toList := by
        rw [tag, String.toList_append]
        exact List.prefix_append ..
      have hrest : (rowCount table).tag.toList.drop rowCountTag.toList.length = table.toList := by
        rw [tag, String.toList_append, List.drop_left]
      have hnamed : table.toList ≠ [] := fun hnil =>
        h (congrArg rowCount (String.toList_inj.mp hnil))
      have hidentity : (rowCount table).tag ≠ "identity" :=
        tag_rowCount_ne .identity (by decide) rfl
      have htenants : (rowCount table).tag ≠ "tenant-hierarchy" :=
        tag_rowCount_ne .tenantHierarchy (by decide) rfl
      have hhosts : (rowCount table).tag ≠ "host-topology" :=
        tag_rowCount_ne .hostTopology (by decide) rfl
      have hprotocol : (rowCount table).tag ≠ "protocol-metadata" :=
        tag_rowCount_ne .protocolMetadata (by decide) rfl
      rw [ofTag?, if_neg hidentity, if_neg htenants, if_neg hhosts, if_neg hprotocol,
        if_pos hstart]
      dsimp only
      rw [hrest, if_neg hnamed, String.ofList_toList]

theorem ofTag?_tag_nameless : ofTag? (rowCount "").tag = none := by decide

/-- What is read as a class. -/
theorem ofTag?_eq_some_iff : ofTag? text = some cls ↔ cls ≠ .rowCount "" ∧ cls.tag = text := by
  constructor
  · intro h
    have htag := tag_eq_of_ofTag? h
    refine ⟨?_, htag⟩
    rintro rfl
    rw [← htag, ofTag?_tag_nameless] at h
    cases h
  · rintro ⟨hnamed, rfl⟩
    exact ofTag?_tag hnamed

theorem ofTag_eq_ok_iff : ofTag text = .ok cls ↔ cls ≠ .rowCount "" ∧ cls.tag = text := by
  rw [← ofTag?_eq_some_iff, ofTag]
  cases ofTag? text <;> simp

/-- What is read as no class is what no class but the exception is written as. The refusal quotes
it. -/
theorem ofTag_eq_error_iff {fault : Fault} :
    ofTag text = .error fault ↔
      (∀ cls : ResourceClass, cls ≠ .rowCount "" → cls.tag ≠ text)
        ∧ fault = .invalidRequest ("unknown resource class: " ++ text) := by
  constructor
  · intro h
    refine ⟨fun cls hnamed heq => ?_, ?_⟩
    · rw [ofTag_eq_ok_iff.mpr ⟨hnamed, heq⟩] at h
      cases h
    · rw [ofTag] at h
      split at h
      · cases h
      · exact (Except.error.inj h).symm
  · rintro ⟨hnone, rfl⟩
    rw [ofTag]
    split
    · next cls hread =>
      obtain ⟨hnamed, htag⟩ := ofTag?_eq_some_iff.mp hread
      exact absurd htag (hnone cls hnamed)
    · rfl

end ResourceClass

/-! ## The statistics of a cache -/

namespace AccessCache

variable {α : Type}

/-- How many slots of a class a cache has. -/
def slotCount (c : AccessCache α) (cls : ResourceClass) : Nat :=
  c.slots.toList.countP fun slot => slot.1.cls == cls

theorem slotCount_pos_iff {c : AccessCache α} {cls : ResourceClass} :
    0 < c.slotCount cls ↔
      ∃ subject slot, c.slots[(⟨cls, subject⟩ : CacheKey)]? = some slot := by
  rw [slotCount, List.countP_pos_iff]
  constructor
  · rintro ⟨⟨⟨_, subject⟩, slot⟩, hitem, hcls⟩
    obtain rfl := beq_iff_eq.mp hcls
    exact ⟨subject, slot, ExtTreeMap.mem_toList_iff_getElem?_eq_some.mp hitem⟩
  · rintro ⟨subject, slot, hslot⟩
    exact ⟨_, ExtTreeMap.mem_toList_iff_getElem?_eq_some.mpr hslot, beq_self_eq_true cls⟩

/-- A class that has slots is counted with them, and no other class is. -/
theorem getElem?_slotsByClass (c : AccessCache α) (cls : ResourceClass) :
    c.slotsByClass[cls]? = if c.slotCount cls = 0 then none else some (c.slotCount cls) := by
  have hfold (items : List (CacheKey × CacheSlot α)) (counts : ExtTreeMap ResourceClass Nat) :
      (items.foldl
        (fun counts item => counts.alter item.1.cls fun n => some (n.getD 0 + 1)) counts)[cls]? =
      if items.countP (fun item => item.1.cls == cls) = 0 then counts[cls]?
      else some (counts[cls]?.getD 0 + items.countP fun item => item.1.cls == cls) := by
    induction items generalizing counts with
    | nil => rfl
    | cons item items ih =>
        rw [List.foldl_cons, ih]
        by_cases heq : item.1.cls = cls
        · subst heq
          have hcount := List.countP_cons_of_pos (l := items)
            (p := fun other => other.1.cls == item.1.cls) (beq_self_eq_true item.1.cls)
          rw [ExtTreeMap.getElem?_alter_self, hcount, if_neg (Nat.succ_ne_zero _),
            Option.getD_some]
          split
          · next hzero => rw [hzero]
          · rw [Nat.add_assoc, Nat.add_comm 1]
        · have hcount := List.countP_cons_of_neg (l := items)
            (p := fun other => other.1.cls == cls) (mt beq_iff_eq.mp heq)
          have hother : compare item.1.cls cls ≠ .eq := mt Std.compare_eq_iff_eq.mp heq
          rw [ExtTreeMap.getElem?_alter, if_neg hother, hcount]
  rw [slotsByClass, ExtTreeMap.foldl_eq_foldl_toList, hfold, ExtTreeMap.getElem?_empty,
    Option.getD_none, Nat.zero_add]
  rfl

/-- Under a tag stands the number of slots of the class that has the tag. -/
theorem getElem?_slotsByTag_eq_some_iff {c : AccessCache α} {tag : String} {count : Nat} :
    c.slotsByTag[tag]? = some count ↔
      ∃ cls : ResourceClass, cls.tag = tag ∧ c.slotCount cls = count ∧ 0 < count := by
  rw [slotsByTag, getElem?_ofList_map_eq_some_iff c.nodup_tags]
  constructor
  · rintro ⟨⟨cls, n⟩, hitem, rfl, rfl⟩
    rw [ExtTreeMap.mem_toList_iff_getElem?_eq_some, getElem?_slotsByClass] at hitem
    split at hitem
    · cases hitem
    · next hsome =>
      cases hitem
      exact ⟨cls, rfl, rfl, Nat.pos_of_ne_zero hsome⟩
  · rintro ⟨cls, rfl, rfl, hpositive⟩
    refine ⟨(cls, c.slotCount cls), ?_, rfl, rfl⟩
    rw [ExtTreeMap.mem_toList_iff_getElem?_eq_some, getElem?_slotsByClass,
      if_neg (Nat.ne_of_gt hpositive)]

theorem getD_slotsByTag (c : AccessCache α) (cls : ResourceClass) :
    c.slotsByTag.getD cls.tag 0 = c.slotCount cls := by
  rw [ExtTreeMap.getD_eq_getD_getElem?]
  cases hcount : c.slotsByTag[cls.tag]? with
  | some count =>
      obtain ⟨other, htag, rfl, -⟩ := getElem?_slotsByTag_eq_some_iff.mp hcount
      rw [ResourceClass.tag_injective htag, Option.getD_some]
  | none =>
      rw [Option.getD_none]
      by_contra hsome
      have hpositive : 0 < c.slotCount cls := Nat.pos_of_ne_zero (Ne.symm hsome)
      rw [getElem?_slotsByTag_eq_some_iff.mpr ⟨cls, rfl, rfl, hpositive⟩] at hcount
      cases hcount

theorem mem_slotsByTag_iff {c : AccessCache α} {tag : String} :
    tag ∈ c.slotsByTag ↔ ∃! cls : ResourceClass, cls.tag = tag ∧ 0 < c.slotCount cls := by
  rw [ExtTreeMap.mem_iff_isSome_getElem?, Option.isSome_iff_exists]
  constructor
  · rintro ⟨count, hcount⟩
    obtain ⟨cls, rfl, rfl, hpositive⟩ := getElem?_slotsByTag_eq_some_iff.mp hcount
    exact ⟨cls, ⟨rfl, hpositive⟩, fun other hother => ResourceClass.tag_injective hother.1⟩
  · rintro ⟨cls, ⟨htag, hpositive⟩, -⟩
    exact ⟨_, getElem?_slotsByTag_eq_some_iff.mpr ⟨cls, htag, rfl, hpositive⟩⟩

/-- The statistics of a cache have one key for each class that has slots, and what they count
under the keys adds up to the slots. -/
structure CountedByTag (c : AccessCache α) : Prop where
  mem_iff (tag : String) :
    tag ∈ c.stats.slotsByTag ↔ ∃! cls : ResourceClass, cls.tag = tag ∧ 0 < c.slotCount cls
  count_eq (cls : ResourceClass) : c.stats.slotsByTag.getD cls.tag 0 = c.slotCount cls
  total_eq : total c.stats.slotsByTag = c.slots.size
  entries_eq : c.stats.entries = c.slots.size

theorem countedByTag (c : AccessCache α) : c.CountedByTag where
  mem_iff _ := mem_slotsByTag_iff
  count_eq := c.getD_slotsByTag
  total_eq := c.entries_stats
  entries_eq := c.entries_stats

end AccessCache

/-! ## Receipts -/

/-- The receipt of an announcement names the classes that depend on the table, each once. -/
theorem nodup_classes_announceTo {σ : Type} (rules : InvalidationRules)
    (targets : List (InvalidationTarget σ)) (event : InvalidationEvent) (state : σ)
    (gate : Gate) :
    let receipt := (announceTo rules targets event state gate).1
    receipt.classes.Nodup
    ∧ ∀ tag, tag ∈ receipt.classes ↔ ∃ cls ∈ rules.classesFor event.table, cls.tag = tag := by
  refine ⟨(nodup_toList_set _).map ResourceClass.tag_injective, fun tag => ?_⟩
  exact List.mem_map.trans (exists_congr fun cls => and_congr_left' ExtTreeSet.mem_toList)

/-- Tags decode what they encode. A text that is read as a class is the tag of that class; the tag
of a class is read as the class, except for the row count of the table without a name, whose tag
is refused; no two classes share a tag. So the statistics of a cache have a key for each class
that has slots, and a receipt names no class twice. -/
theorem ResourceClass.tags_invertible_and_distinct :
    (∀ text cls, ofTag text = .ok cls → cls.tag = text)
    ∧ (∀ cls : ResourceClass, cls ≠ .rowCount "" → ofTag cls.tag = .ok cls)
    ∧ ofTag (rowCount "").tag = .error (.invalidRequest "unknown resource class: row-count:")
    ∧ Function.Injective tag
    ∧ (∀ (α : Type) (c : AccessCache α), c.CountedByTag)
    ∧ ∀ (σ : Type) (rules : InvalidationRules) (targets : List (InvalidationTarget σ))
        (event : InvalidationEvent) (state : σ) (gate : Gate),
        let receipt := (announceTo rules targets event state gate).1
        receipt.classes.Nodup
        ∧ ∀ tag, tag ∈ receipt.classes ↔
          ∃ cls ∈ rules.classesFor event.table, cls.tag = tag := by
  refine ⟨fun text cls hread => ?_, fun cls hnamed => ?_, ?_, tag_injective,
    fun α c => c.countedByTag, fun σ => nodup_classes_announceTo⟩
  · exact (ofTag_eq_ok_iff.mp hread).2
  · exact ofTag_eq_ok_iff.mpr ⟨hnamed, rfl⟩
  · have hunread (cls : ResourceClass) (hnamed : cls ≠ .rowCount "") :
        cls.tag ≠ (rowCount "").tag :=
      fun heq => hnamed (tag_injective heq)
    exact ofTag_eq_error_iff.mpr ⟨hunread, rfl⟩

end ControlPlane
