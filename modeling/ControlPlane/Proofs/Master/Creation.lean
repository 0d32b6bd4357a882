/-
# Setting up a master

A configuration that is accepted always yields a master: its extra dependencies are read
twice, once to accept them and once to use them, and what was accepted can be used. The
master keeps nothing yet, its invalidation rules are the built-in ones with the extra ones
added, and what it will keep lives long enough to be served.
-/

import ControlPlane.Proofs.Master.Keeping
import ControlPlane.Proofs.Master.Run
import ControlPlane.Proofs.Metadata.Acceptance

namespace ControlPlane

open Std (ExtTreeMap ExtTreeSet)

/-- A list can be read if each of its items can. -/
theorem exists_mapM_eq_ok {α β ε : Type} {read : α → Except ε β} {items : List α}
    (h : ∀ item ∈ items, ∃ value, read item = .ok value) :
    ∃ values, items.mapM read = .ok values := by
  induction items with
  | nil => exact ⟨[], rfl⟩
  | cons item rest ih =>
      obtain ⟨value, hvalue⟩ := h item List.mem_cons_self
      obtain ⟨values, hvalues⟩ := ih fun other hother => h other (List.mem_cons_of_mem _ hother)
      exact ⟨value :: values, by rw [List.mapM_cons, hvalue, hvalues]; rfl⟩

namespace Config

variable {config : Config}

/-- Every table with extra dependencies has a name, and its tags are those of classes. -/
def IsLegible (config : Config) : Prop :=
  ∀ table tags, config.dependencies[table]? = some tags →
    table ≠ "" ∧ ∀ tag ∈ tags, ∃ cls, ResourceClass.ofTag tag = .ok cls

theorem validateDependency_eq_ok_iff {table : String} {tags : List String} :
    validateDependency table tags = .ok () ↔
      table ≠ "" ∧ ∀ tag ∈ tags, ∃ cls, ResourceClass.ofTag tag = .ok cls := by
  unfold validateDependency
  split
  · next hempty =>
    rw [String.isEmpty_iff] at hempty
    exact iff_of_false nofun fun h => h.1 hempty
  · next hnamed =>
    rw [String.isEmpty_iff] at hnamed
    rw [forM_eq_ok_iff]
    simp only [bind_eq_ok_iff, mapError_eq_ok_iff]
    exact ⟨fun h => ⟨hnamed, fun tag htag => ⟨_, (h tag htag).choose_spec.1⟩⟩,
      fun h tag htag => (h.2 tag htag).imp fun _ hcls => ⟨hcls, rfl⟩⟩

/-- A configuration is accepted exactly if each of its parts is. -/
theorem validate_eq_ok_iff :
    config.validate = .ok () ↔ validateCache config.cache = .ok () ∧ config.validateSync = .ok ()
      ∧ config.IsLegible ∧ config.logLevel ∈ logLevels := by
  have hlevel : (if !logLevels.contains config.logLevel then throw (.badLogLevel config.logLevel)
      else pure () : Except ConfigError Unit) = .ok () ↔ config.logLevel ∈ logLevels := by
    by_cases hmem : config.logLevel ∈ logLevels
    · simp [hmem, pure, Except.pure]
    · simp [hmem, throw, throwThe, MonadExceptOf.throw]
  simp only [validate, check_bind_eq_ok_iff, forM_eq_ok_iff, validateDependency_eq_ok_iff, hlevel,
    IsLegible, Prod.forall, ExtTreeMap.mem_toList_iff_getElem?_eq_some]

/-- Dependencies that are legible can be read. -/
theorem IsLegible.exists_extraDependencies (h : config.IsLegible) :
    ∃ extra, config.extraDependencies = .ok extra := by
  apply exists_mapM_eq_ok
  rintro ⟨table, tags⟩ hentry
  have hset := ExtTreeMap.mem_toList_iff_getElem?_eq_some.mp hentry
  obtain ⟨classes, hclasses⟩ := exists_mapM_eq_ok (h table tags hset).2
  exact ⟨(table, classes), by rw [hclasses]; rfl⟩

/-- An accepted lifetime is positive and within the bound on what an entry can have left. -/
theorem ttlSeconds_of_validateCache {cache : CacheConfig} (h : validateCache cache = .ok ()) :
    cache.ttlSeconds ≠ 0 ∧ cache.ttlSeconds ≤ cache.maxAgeSeconds.getD cache.ttlSeconds := by
  by_cases hzero : cache.ttlSeconds = 0
  · simp [validateCache, hzero, bind, Except.bind, throw, throwThe, MonadExceptOf.throw] at h
  · refine ⟨hzero, ?_⟩
    cases hmax : cache.maxAgeSeconds with
    | none => exact UInt64.le_refl _
    | some maxAge =>
        by_cases hbelow : maxAge < cache.ttlSeconds
        · simp [validateCache, hzero, hmax, hbelow, bind, Except.bind, throw, throwThe,
            MonadExceptOf.throw] at h
        · exact UInt64.not_lt.mp hbelow

theorem serve_of_validate (h : config.validate = .ok ()) :
    CacheSettings.Serve { ttl := config.cache.ttl, maxAge := config.cache.maxAge } := by
  obtain ⟨hcache, -⟩ := validate_eq_ok_iff.mp h
  obtain ⟨hpositive, hbounded⟩ := ttlSeconds_of_validateCache hcache
  have hpositive' : 0 < config.cache.ttlSeconds.toNat :=
    UInt64.lt_iff_toNat_lt.mp (UInt64.pos_iff_ne_zero.mpr hpositive)
  have hbounded' := UInt64.le_iff_toNat_le.mp hbounded
  simp only [CacheSettings.Serve, CacheConfig.ttl, CacheConfig.maxAge,
    Duration.toNat_millis_ofSeconds, UInt64.size]
  omega

end Config

/-- An announcement of a part's table drops what is derived from the part. -/
def InvalidationRules.Cover (rules : InvalidationRules) : Prop :=
  ∀ part : MetadataPart, ∀ table ∈ part.tables, ∀ cls ∈ part.classes, cls ∈ rules.classesFor table

theorem cover_builtin : InvalidationRules.builtin.Cover := by
  intro part table htable cls hcls
  cases part with
  | rows counted =>
      obtain rfl := List.mem_singleton.mp htable
      obtain rfl := List.mem_singleton.mp hcls
      exact ExtTreeSet.mem_insert_self
  | accounts => revert cls; revert table; decide
  | users => revert cls; revert table; decide
  | hosts => revert cls; revert table; decide
  | registry => revert cls; revert table; decide

namespace InvalidationRules

variable {rules : InvalidationRules} {table other : String} {cls : ResourceClass}

theorem mem_getD_add_iff {classes : List ResourceClass} :
    cls ∈ (rules.add table classes).byTable.getD other ∅ ↔
      cls ∈ rules.byTable.getD other ∅ ∨ table = other ∧ cls ∈ classes := by
  rw [add, ExtTreeMap.getD_alter]
  split
  · next heq =>
    obtain rfl : table = other := Std.LawfulEqOrd.eq_of_compare heq
    rw [ExtTreeMap.getD_eq_getD_getElem?]
    simp [ExtTreeSet.mem_insertMany_list]
  · next hne =>
    rw [Std.LawfulEqOrd.compare_eq_iff_eq] at hne
    simp [hne]

/-- Further dependencies add their classes to those of their tables, and do nothing else. -/
theorem mem_getD_addAll_iff {extra : List (String × List ResourceClass)} :
    cls ∈ (rules.addAll extra).byTable.getD table ∅ ↔
      cls ∈ rules.byTable.getD table ∅ ∨ ∃ entry ∈ extra, entry.1 = table ∧ cls ∈ entry.2 := by
  unfold addAll
  induction extra generalizing rules with
  | nil => simp
  | cons entry rest ih =>
      rw [List.foldl_cons, ih, mem_getD_add_iff, or_assoc]
      simp only [List.mem_cons, exists_eq_or_imp]

end InvalidationRules

/-- Further dependencies take nothing away. -/
theorem mem_classesFor_addAll {rules : InvalidationRules} {table : String} {cls : ResourceClass}
    (h : cls ∈ rules.classesFor table) (extra : List (String × List ResourceClass)) :
    cls ∈ (rules.addAll extra).classesFor table := by
  rw [InvalidationRules.classesFor, ExtTreeSet.mem_insert] at h ⊢
  exact h.imp_right fun hknown => InvalidationRules.mem_getD_addAll_iff.mpr (.inl hknown)

/-- A master that has just been set up with some rules. -/
structure Master.IsNew (master : Master) (rules : TableRules) : Prop where
  rules_eq : master.rules = rules
  cover : master.invalidation.Cover
  serve : master.resolver.scopes.settings.Serve
  isCold : master.IsCold
  bridge_eq : master.bridge = {}

/-- An accepted configuration yields a master. -/
theorem Master.exists_create_of_validate {config : Config} (h : config.validate = .ok ())
    (rules : TableRules) :
    ∃ master, Master.create config rules = .ok master ∧ master.IsNew rules := by
  obtain ⟨extra, hextra⟩ := (Config.validate_eq_ok_iff.mp h).2.2.1.exists_extraDependencies
  refine ⟨_, by unfold create; rw [h, hextra]; rfl, ?_⟩
  exact {
    rules_eq := rfl
    cover := fun part table htable cls hcls =>
      mem_classesFor_addAll (cover_builtin part table htable cls hcls) extra
    serve := Config.serve_of_validate h
    isCold := ⟨rfl, rfl, rfl⟩
    bridge_eq := rfl }

end ControlPlane
