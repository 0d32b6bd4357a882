/-
# Dependencies that a configuration adds

A configuration may say that further classes depend on a table. Its tags are read twice, once to
accept them and once to use them, and what is read is added to the built-in rules entry by entry.
Here the three passes are shown to agree: what is accepted is what can be used, a change to a table
drops the built-in classes, those that are set for the table and its own row count, and nothing
depends on the order in which tags are set or on how often.

Nothing is said of configurations that are refused, except which dependencies are at fault.
-/

import ControlPlane.Proofs.Master.Creation
import Mathlib.Data.Finset.Dedup

namespace ControlPlane

open Std (ExtTreeMap ExtTreeSet)

/-! ## Rule sets -/

namespace InvalidationRules

variable {rules rules' : InvalidationRules} {table other : String} {cls : ResourceClass}
  {extra : List (String × List ResourceClass)}

/-- A class that depends on a table without any configuration. -/
def IsBuiltin (table : String) (cls : ResourceClass) : Prop :=
  ∃ entry ∈ builtinDependencies, entry.1 = table ∧ cls ∈ entry.2

theorem mem_classesFor_builtin_addAll_iff :
    cls ∈ (builtin.addAll extra).classesFor table ↔
      IsBuiltin table cls ∨ (∃ entry ∈ extra, entry.1 = table ∧ cls ∈ entry.2)
        ∨ cls = .rowCount table := by
  have hempty : cls ∉ ({} : InvalidationRules).byTable.getD table ∅ := by simp
  rw [classesFor, ExtTreeSet.mem_insert, mem_getD_addAll_iff, builtin, mem_getD_addAll_iff,
    Std.LawfulEqOrd.compare_eq_iff_eq, eq_comm]
  simp only [hempty, false_or, IsBuiltin]
  rw [or_comm, or_assoc]

theorem mem_byTable_add_iff {classes : List ResourceClass} :
    other ∈ (rules.add table classes).byTable ↔ other ∈ rules.byTable ∨ table = other := by
  simp only [add, ExtTreeMap.mem_alter]
  split
  · next heq => simp [Std.LawfulEqOrd.eq_of_compare heq]
  · next hne =>
    rw [Std.LawfulEqOrd.compare_eq_iff_eq] at hne
    simp [hne]

theorem mem_byTable_addAll_iff :
    table ∈ (rules.addAll extra).byTable ↔
      table ∈ rules.byTable ∨ ∃ entry ∈ extra, entry.1 = table := by
  unfold addAll
  induction extra generalizing rules with
  | nil => simp
  | cons entry rest ih =>
      rw [List.foldl_cons, ih, mem_byTable_add_iff, or_assoc]
      simp only [List.mem_cons, exists_eq_or_imp]

/-- Rule sets are known by their tables and by what depends on these. -/
theorem eq_of_mem_iff (htables : ∀ table, table ∈ rules.byTable ↔ table ∈ rules'.byTable)
    (hclasses : ∀ table cls,
      cls ∈ rules.byTable.getD table ∅ ↔ cls ∈ rules'.byTable.getD table ∅) : rules = rules' := by
  rw [InvalidationRules.mk.injEq]
  apply ExtTreeMap.ext_getElem?
  intro table
  have hsame : rules.byTable.getD table ∅ = rules'.byTable.getD table ∅ :=
    ExtTreeSet.ext_mem fun {cls} => hclasses table cls
  rw [ExtTreeMap.getD_eq_getD_getElem?, ExtTreeMap.getD_eq_getD_getElem?] at hsame
  have hknown := htables table
  rw [ExtTreeMap.mem_iff_isSome_getElem?, ExtTreeMap.mem_iff_isSome_getElem?] at hknown
  cases hold : rules.byTable[table]? with
  | none =>
      cases hnew : rules'.byTable[table]? with
      | none => rfl
      | some classes => simp [hold, hnew] at hknown
  | some classes =>
      cases hnew : rules'.byTable[table]? with
      | none => simp [hold, hnew] at hknown
      | some classes' =>
          rw [hold, hnew] at hsame
          exact congrArg some hsame

/-- Extra dependencies of the same tables on the same classes make the same rule set. -/
theorem addAll_eq_of_mem_iff {extra' : List (String × List ResourceClass)}
    (htables : ∀ table, (∃ entry ∈ extra, entry.1 = table) ↔ ∃ entry ∈ extra', entry.1 = table)
    (hclasses : ∀ table cls, (∃ entry ∈ extra, entry.1 = table ∧ cls ∈ entry.2) ↔
      ∃ entry ∈ extra', entry.1 = table ∧ cls ∈ entry.2) :
    rules.addAll extra = rules.addAll extra' := by
  apply eq_of_mem_iff
  · intro table
    rw [mem_byTable_addAll_iff, mem_byTable_addAll_iff, htables]
  · intro table cls
    rw [mem_getD_addAll_iff, mem_getD_addAll_iff, hclasses]

end InvalidationRules

/-! ## Extra dependencies -/

/-- The same tags for the same tables, in any order and any number. -/
def SameTags (dependencies dependencies' : ExtTreeMap String (List String)) : Prop :=
  ∀ table : String,
    dependencies[table]?.map List.toFinset = dependencies'[table]?.map List.toFinset

theorem SameTags.symm {dependencies dependencies' : ExtTreeMap String (List String)}
    (h : SameTags dependencies dependencies') : SameTags dependencies' dependencies :=
  fun table => (h table).symm

theorem SameTags.exists_tags {dependencies dependencies' : ExtTreeMap String (List String)}
    (h : SameTags dependencies dependencies') {table : String} {tags : List String}
    (htags : dependencies[table]? = some tags) :
    ∃ tags', dependencies'[table]? = some tags' ∧ ∀ tag, tag ∈ tags' ↔ tag ∈ tags := by
  have hsame := h table
  rw [htags, Option.map_some] at hsame
  obtain ⟨tags', htags', hfinset⟩ := Option.map_eq_some_iff.mp hsame.symm
  refine ⟨tags', htags', fun tag => ?_⟩
  rw [← List.mem_toFinset, hfinset, List.mem_toFinset]

namespace Config

variable {config : Config} {dependencies : ExtTreeMap String (List String)}
  {extra : List (String × List ResourceClass)} {table : String} {cls : ResourceClass}

/-- A class whose tag is set for a table. -/
def Adds (config : Config) (table : String) (cls : ResourceClass) : Prop :=
  ∃ tags, config.dependencies[table]? = some tags
    ∧ ∃ tag ∈ tags, ResourceClass.ofTag tag = .ok cls

theorem mem_extraDependencies_iff (h : config.extraDependencies = .ok extra)
    {classes : List ResourceClass} :
    (table, classes) ∈ extra ↔
      ∃ tags, config.dependencies[table]? = some tags
        ∧ tags.mapM ResourceClass.ofTag = .ok classes := by
  rw [mem_iff_of_mapM_eq_ok h]
  simp only [bind_eq_ok_iff, mapError_eq_ok_iff, Prod.exists,
    ExtTreeMap.mem_toList_iff_getElem?_eq_some]
  constructor
  · rintro ⟨table', tags, htags, classes', hclasses, heq⟩
    obtain ⟨rfl, rfl⟩ := Prod.mk.inj (Except.ok.inj heq)
    exact ⟨tags, htags, hclasses⟩
  · rintro ⟨tags, htags, hclasses⟩
    exact ⟨table, tags, htags, classes, hclasses, rfl⟩

/-- What is read are the classes whose tags are set. -/
theorem exists_mem_extraDependencies_iff (hlegible : config.IsLegible)
    (h : config.extraDependencies = .ok extra) :
    (∃ entry ∈ extra, entry.1 = table ∧ cls ∈ entry.2) ↔ config.Adds table cls := by
  constructor
  · rintro ⟨⟨_, classes⟩, hentry, rfl, hcls⟩
    obtain ⟨tags, htags, hclasses⟩ := (mem_extraDependencies_iff h).mp hentry
    exact ⟨tags, htags, (mem_iff_of_mapM_eq_ok hclasses).mp hcls⟩
  · rintro ⟨tags, htags, hcls⟩
    obtain ⟨classes, hclasses⟩ := exists_mapM_eq_ok (hlegible table tags htags).2
    exact ⟨(table, classes), (mem_extraDependencies_iff h).mpr ⟨tags, htags, hclasses⟩, rfl,
      (mem_iff_of_mapM_eq_ok hclasses).mpr hcls⟩

theorem exists_entry_iff (hlegible : config.IsLegible) (h : config.extraDependencies = .ok extra) :
    (∃ entry ∈ extra, entry.1 = table) ↔ ∃ tags, config.dependencies[table]? = some tags := by
  constructor
  · rintro ⟨⟨_, classes⟩, hentry, rfl⟩
    obtain ⟨tags, htags, -⟩ := (mem_extraDependencies_iff h).mp hentry
    exact ⟨tags, htags⟩
  · rintro ⟨tags, htags⟩
    obtain ⟨classes, hclasses⟩ := exists_mapM_eq_ok (hlegible table tags htags).2
    exact ⟨(table, classes), (mem_extraDependencies_iff h).mpr ⟨tags, htags, hclasses⟩, rfl⟩

/-! ### Tags in another order -/

section

variable {other : Config} (hsame : SameTags config.dependencies other.dependencies)
include hsame

theorem IsLegible.of_sameTags (h : config.IsLegible) : other.IsLegible := by
  intro table tags' htags'
  obtain ⟨tags, htags, hmem⟩ := hsame.symm.exists_tags htags'
  obtain ⟨hnamed, hread⟩ := h table tags htags
  exact ⟨hnamed, fun tag htag => hread tag ((hmem tag).mpr htag)⟩

theorem Adds.of_sameTags (h : config.Adds table cls) : other.Adds table cls := by
  obtain ⟨tags, htags, tag, htag, hcls⟩ := h
  obtain ⟨tags', htags', hmem⟩ := hsame.exists_tags htags
  exact ⟨tags', htags', tag, (hmem tag).mpr htag, hcls⟩

/-- Legible dependencies make the same rules in any order. -/
theorem addAll_eq_of_sameTags {extra' : List (String × List ResourceClass)}
    (hlegible : config.IsLegible) (h : config.extraDependencies = .ok extra)
    (h' : other.extraDependencies = .ok extra') (rules : InvalidationRules) :
    rules.addAll extra' = rules.addAll extra := by
  have hlegible' : other.IsLegible := hlegible.of_sameTags hsame
  apply InvalidationRules.addAll_eq_of_mem_iff
  · intro table
    rw [exists_entry_iff hlegible h, exists_entry_iff hlegible' h']
    exact ⟨fun ⟨_, htags⟩ => (hsame.symm.exists_tags htags).imp fun _ => And.left,
      fun ⟨_, htags⟩ => (hsame.exists_tags htags).imp fun _ => And.left⟩
  · intro table cls
    rw [exists_mem_extraDependencies_iff hlegible h, exists_mem_extraDependencies_iff hlegible' h']
    exact ⟨fun hadds => hadds.of_sameTags hsame.symm, fun hadds => hadds.of_sameTags hsame⟩

end

section

variable (hsame : SameTags config.dependencies dependencies)
include hsame

theorem validate_of_sameTags (hvalid : config.validate = .ok ()) :
    { config with dependencies }.validate = .ok () := by
  obtain ⟨hcache, hsync, hlegible, hlevel⟩ := validate_eq_ok_iff.mp hvalid
  exact validate_eq_ok_iff.mpr ⟨hcache, hsync, hlegible.of_sameTags hsame, hlevel⟩

theorem create_eq_of_sameTags (hvalid : config.validate = .ok ()) (rules : TableRules) :
    Master.create { config with dependencies } rules = Master.create config rules := by
  have hlegible := (validate_eq_ok_iff.mp hvalid).2.2.1
  have hlegible' : { config with dependencies }.IsLegible := hlegible.of_sameTags hsame
  obtain ⟨extra, hextra⟩ := hlegible.exists_extraDependencies
  obtain ⟨extra', hextra'⟩ := hlegible'.exists_extraDependencies
  have hrules := addAll_eq_of_sameTags hsame hlegible hextra hextra' .builtin
  unfold Master.create
  rw [hvalid, validate_of_sameTags hsame hvalid, hextra, hextra']
  simp only [bind, Except.bind, hrules]
  rfl

end

/-! ## What depends on a table -/

theorem invalidation_of_create {rules : TableRules} {master : Master}
    (h : Master.create config rules = .ok master) (hextra : config.extraDependencies = .ok extra) :
    master.invalidation = InvalidationRules.builtin.addAll extra := by
  simp only [Master.create, bind_eq_ok_iff] at h
  obtain ⟨_, -, extra', hextra', h⟩ := h
  obtain rfl : extra' = extra := Except.ok.inj (hextra'.symm.trans hextra)
  rw [← Except.ok.inj h]

/-- A configuration is accepted exactly if it is without its extra dependencies, these name their
tables and each tag is that of a class. An accepted configuration sets up a master over any rules,
and what depends on a table for the master are the built-in classes, those whose tags are set and
the row count of the table. The tags may be set in any order and any number of times. -/
theorem dependencies_merged (config : Config) :
    (config.validate = .ok () ↔
      { config with dependencies := ∅ }.validate = .ok () ∧ config.IsLegible)
    ∧ (config.validate = .ok () →
      (∃ extra, config.extraDependencies = .ok extra
        ∧ ∀ rules, ∃ master, Master.create config rules = .ok master
          ∧ master.invalidation = InvalidationRules.builtin.addAll extra
          ∧ ∀ table cls, cls ∈ master.invalidation.classesFor table ↔
            InvalidationRules.IsBuiltin table cls ∨ config.Adds table cls ∨ cls = .rowCount table)
      ∧ ∀ dependencies, SameTags config.dependencies dependencies →
        { config with dependencies }.validate = .ok ()
        ∧ ∀ rules, Master.create { config with dependencies } rules =
          Master.create config rules) := by
  refine ⟨?_, fun hvalid => ⟨?_, fun dependencies hsame => ⟨?_, ?_⟩⟩⟩
  · have hnone : { config with dependencies := ∅ }.IsLegible := by
      intro table tags htags
      simp at htags
    rw [validate_eq_ok_iff, validate_eq_ok_iff]
    exact ⟨fun ⟨hcache, hsync, hlegible, hlevel⟩ => ⟨⟨hcache, hsync, hnone, hlevel⟩, hlegible⟩,
      fun ⟨⟨hcache, hsync, _, hlevel⟩, hlegible⟩ => ⟨hcache, hsync, hlegible, hlevel⟩⟩
  · have hlegible := (validate_eq_ok_iff.mp hvalid).2.2.1
    obtain ⟨extra, hextra⟩ := hlegible.exists_extraDependencies
    refine ⟨extra, hextra, fun rules => ?_⟩
    obtain ⟨master, hcreate, -⟩ := Master.exists_create_of_validate hvalid rules
    have hrules := invalidation_of_create hcreate hextra
    refine ⟨master, hcreate, hrules, fun table cls => ?_⟩
    rw [hrules, InvalidationRules.mem_classesFor_builtin_addAll_iff,
      exists_mem_extraDependencies_iff hlegible hextra]
  · exact validate_of_sameTags hsame hvalid
  · exact create_eq_of_sameTags hsame hvalid

/-- A table with built-in dependencies gets further ones, one of them under a tag with a colon in
its text. -/
def extendedConfig : Config where
  dependencies := ExtTreeMap.ofList
    [("accounts", ["host-topology", "row-count:a:b"]), ("domains", ["identity"])]

theorem dependencies_merged_of_extendedConfig :
    extendedConfig.validate = .ok ()
      ∧ ∃ master, Master.create extendedConfig {} = .ok master
        ∧ (∀ cls, cls ∈ master.invalidation.classesFor "accounts" ↔
          cls ∈ [.tenantHierarchy, .identity, .hostTopology, .rowCount "a:b", .rowCount "accounts"])
        ∧ Master.create
            { extendedConfig with
              dependencies := ExtTreeMap.ofList
                [("domains", ["identity", "identity"]),
                  ("accounts", ["row-count:a:b", "host-topology", "row-count:a:b"])] } {} =
          .ok master := by
  have hvalid : extendedConfig.validate = .ok () := by decide +kernel
  obtain ⟨-, hmerged⟩ := dependencies_merged extendedConfig
  obtain ⟨⟨extra, -, hcreated⟩, hreordered⟩ := hmerged hvalid
  obtain ⟨master, hcreate, -, hclasses⟩ := hcreated {}
  refine ⟨hvalid, master, hcreate, fun cls => ?_, ?_⟩
  · have htags : extendedConfig.dependencies["accounts"]? =
        some ["host-topology", "row-count:a:b"] := by decide +kernel
    have hread : ResourceClass.ofTag "host-topology" = .ok .hostTopology := by decide
    have hread' : ResourceClass.ofTag "row-count:a:b" = .ok (.rowCount "a:b") := by decide
    rw [hclasses]
    simp [InvalidationRules.IsBuiltin, InvalidationRules.builtinDependencies, Adds, htags, hread,
      hread', or_assoc, eq_comm]
  · rw [← hcreate]
    refine (hreordered _ fun table => ?_).2 {}
    rcases eq_or_ne table "accounts" with rfl | haccounts
    · decide +kernel
    rcases eq_or_ne table "domains" with rfl | hdomains
    · decide +kernel
    · simp [extendedConfig, ExtTreeMap.ofList_eq_insertMany_empty, ExtTreeMap.insertMany_cons,
        haccounts.symm, hdomains.symm]

end Config

end ControlPlane
