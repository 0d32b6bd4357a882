/-
# What is derived from a store

Everything that a master keeps was derived from the store, at a time when the store could be
reached. What it would be now is read off the store as if it could be reached, and a change
alters it only if the change belongs to a part of the metadata that it is derived from.
-/

import ControlPlane.Proofs.Access.Visibility
import ControlPlane.Proofs.Master.Run

namespace ControlPlane

/-! ## What is derived from a store -/

namespace Store

/-- The store if it could be reached. -/
def online (store : Store) : Store :=
  { store with isAvailable := true }

theorem online_of_isAvailable {store : Store} (h : store.isAvailable = true) :
    store.online = store := by
  cases store
  cases h
  rfl

theorem read_of_not_isAvailable {store : Store} (h : store.isAvailable = false) :
    store.read = .error (.metadata .storeUnavailable) := by
  simp [read, h]

theorem eq_snapshot_of_read {store : Store} {s : Snapshot} (h : store.read = .ok s) :
    s = store.snapshot := by
  unfold read at h
  split at h
  · exact (Except.ok.inj h).symm
  · cases h

/-- What a store gives, it would give if it could be reached. -/
theorem resolveIdentity_online {store : Store} {username : String} {identity : Identity}
    (h : store.resolveIdentity username = .ok identity) :
    store.online.resolveIdentity username = .ok identity := by
  cases havailable : store.isAvailable with
  | true => rwa [online_of_isAvailable havailable]
  | false =>
      rw [resolveIdentity, read_of_not_isAvailable havailable] at h
      cases h

theorem computeScope_online {store : Store} {identity : Identity} {options : ScopeOptions}
    {scope : AccessScope} (h : store.computeScope identity options = .ok scope) :
    store.online.computeScope identity options = .ok scope := by
  cases havailable : store.isAvailable with
  | true => rwa [online_of_isAvailable havailable]
  | false =>
      have hread := read_of_not_isAvailable havailable
      cases identity with
      | operator username => exact h
      | tenant username account =>
          rw [computeScope, ownershipChain, hread] at h
          cases h
      | scopedOperator username hosts permissions =>
          cases hempty : hosts.isEmpty with
          | true =>
              rw [computeScope, expandHosts, if_pos hempty] at h ⊢
              exact h
          | false =>
              rw [computeScope, expandHosts, hempty, hread] at h
              cases h

/-- Only a store that can be reached loads. -/
theorem isAvailable_of_load {store : Store} {loaded : Catalog}
    (h : Catalog.load store.registry = .ok loaded) : store.isAvailable = true := by
  cases havailable : store.isAvailable with
  | true => rfl
  | false =>
      rw [Catalog.load, registry, read_of_not_isAvailable havailable] at h
      cases h

theorem load_online {store : Store} {loaded : Catalog}
    (h : Catalog.load store.registry = .ok loaded) :
    Catalog.load store.online.registry = .ok loaded := by
  rwa [online_of_isAvailable (isAvailable_of_load h)]

end Store

/-- The role of a user who has an identity. -/
def Identity.role : Identity → UserRole
  | .operator _ => .operator
  | .scopedOperator _ hosts permissions => .scopedOperator hosts permissions
  | .tenant _ account => .tenant account

/-- An identity is what the directory says of its user; a tenant's account must exist. -/
theorem Store.resolveIdentity_online_eq_ok_iff (store : Store) (username : String)
    (identity : Identity) :
    store.online.resolveIdentity username = .ok identity ↔
      (identity.username = username ∧ store.snapshot.users[username]? = some identity.role)
      ∧ ∀ name account, identity = .tenant name account →
        store.snapshot.hierarchy.contains account = true := by
  have hread : store.online.read = .ok store.snapshot := rfl
  simp only [resolveIdentity, hread, bind, Except.bind, Snapshot.classify,
    Snapshot.assignedHosts, Snapshot.permissions]
  cases huser : store.snapshot.users[username]? with
  | none => simp
  | some role =>
      cases role with
      | operator =>
          constructor
          · rintro ⟨⟩
            exact ⟨⟨rfl, rfl⟩, fun _ _ hidentity => by cases hidentity⟩
          · rintro ⟨⟨rfl, hrole⟩, -⟩
            cases identity <;> cases hrole
            rfl
      | scopedOperator hosts permissions =>
          constructor
          · rintro ⟨⟩
            exact ⟨⟨rfl, rfl⟩, fun _ _ hidentity => by cases hidentity⟩
          · rintro ⟨⟨rfl, hrole⟩, -⟩
            cases identity <;> cases hrole
            rfl
      | tenant account =>
          cases hexists : store.snapshot.hierarchy.contains account with
          | true =>
              simp only [Option.map_some, hexists, if_true]
              constructor
              · rintro ⟨⟩
                refine ⟨⟨rfl, rfl⟩, fun _ _ hidentity => ?_⟩
                obtain ⟨-, rfl⟩ := Identity.tenant.inj hidentity
                exact hexists
              · rintro ⟨⟨rfl, hrole⟩, -⟩
                cases identity <;> cases hrole
                rfl
          | false =>
              simp only [Option.map_some, hexists, Bool.false_eq_true, if_false]
              constructor
              · rintro ⟨⟩
              · rintro ⟨⟨rfl, hrole⟩, haccount⟩
                cases identity <;> cases hrole
                exact absurd (haccount _ _ rfl) (by simp [hexists])

/-! ## What a change leaves alone -/

namespace Store.Change

variable {change : Store.Change} {s : Snapshot}

theorem hierarchy_apply (h : change.part ≠ .accounts) :
    (change.apply s).hierarchy = s.hierarchy := by
  cases change <;> first | rfl | exact absurd rfl h

theorem users_apply (h : change.part ≠ .users) : (change.apply s).users = s.users := by
  cases change <;> first | rfl | exact absurd rfl h

theorem topology_apply (h : change.part ≠ .hosts) :
    (change.apply s).topology = s.topology := by
  cases change <;> first | rfl | exact absurd rfl h

theorem registry_apply (h : change.part ≠ .registry) :
    (change.apply s).versions = s.versions ∧ (change.apply s).tables = s.tables := by
  cases change <;> first | exact ⟨rfl, rfl⟩ | exact absurd rfl h

/-- A new row counts in its own table only. -/
theorem rowCount_apply {table : String} (h : change.part ≠ .rows table) (query : QueryScope) :
    (change.apply s).rowCount table query = s.rowCount table query := by
  cases change with
  | addRow row =>
      have hne : row.table ≠ table := fun heq => h (congrArg MetadataPart.rows heq)
      simp [apply, Snapshot.rowCount, List.countP_append, hne]
  | _ => rfl

end Store.Change

namespace Store

variable {change : Store.Change}

theorem registry_change (h : change.part ≠ .registry) (store : Store) :
    (store.change change).online.registry = store.online.registry := by
  obtain ⟨hversions, htables⟩ := Change.registry_apply (s := store.snapshot) h
  change Registry.mk (.ok (change.apply store.snapshot).versions)
    (.ok (change.apply store.snapshot).tables) = _
  rw [hversions, htables]
  rfl

/-- A scope is derived from the parts that its class is derived from. -/
theorem computeScope_change {identity : Identity} {options : ScopeOptions} {key : CacheKey}
    (hkey : identity.scopeKey? options = some key)
    (hparts : ∀ part : MetadataPart, key.cls ∈ part.classes → change.part ≠ part)
    (store : Store) :
    (store.change change).online.computeScope identity options =
      store.online.computeScope identity options := by
  cases identity with
  | operator username => rfl
  | tenant username account =>
      have hpart : change.part ≠ .accounts := by
        apply hparts
        rw [← Option.some.inj hkey]
        exact List.mem_cons_self
      have hwalk : (store.change change).online.ownershipChain account =
          store.online.ownershipChain account :=
        congrArg (Hierarchy.walk · account) (Change.hierarchy_apply hpart)
      rw [computeScope, hwalk]
      rfl
  | scopedOperator username hosts permissions =>
      have hpart : change.part ≠ .hosts := by
        apply hparts
        rw [← Option.some.inj hkey]
        exact List.mem_cons_self
      have hread : (store.change change).online.read = .ok (change.apply store.snapshot) := rfl
      have hread' : store.online.read = .ok store.snapshot := rfl
      rw [computeScope, computeScope, expandHosts_eq hread, expandHosts_eq hread',
        Change.topology_apply hpart]

end Store

end ControlPlane
