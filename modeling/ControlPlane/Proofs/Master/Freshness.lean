/-
# A master whose store's changes are announced

A master that keeps what it derived answers like one that keeps nothing, as long as every
change of the store was followed by an announcement of a table it belongs to. What is kept
was derived at various times. It is current where the parts of the metadata it was derived
from are announced: a change to such a part takes that away, and the announcement that
brings it back drops the classes derived from the part.

A value may be derived between a change and its announcement, from an identity that is
itself out of date. Such a value is never claimed to be current, because a part is then
unannounced that its own class is derived from.
-/

import ControlPlane.Proofs.Master.Answers
import ControlPlane.Proofs.Master.Creation
import ControlPlane.Proofs.Master.Derivation
import ControlPlane.Proofs.Master.Keys
import Mathlib.Data.List.Induction

namespace ControlPlane

/-! ## What is current -/

/-- Whether a scoped operator has the assignment that the directory says. -/
def Snapshot.Assigns (s : Snapshot) (identity : Identity) : Prop :=
  ∀ username hosts permissions, identity = .scopedOperator username hosts permissions →
    s.users[username]? = some (.scopedOperator hosts permissions)

/-- What is kept is what the store would give, as far as announcements can tell: each part of
a value is current if the metadata it was derived from is announced. -/
def current (announced : MetadataPart → Prop) (store : Store) : Kept where
  identity key identity :=
    key.cls = .identity
    ∧ (announced .users → identity.username = key.subject
        ∧ store.snapshot.users[key.subject]? = some identity.role)
    ∧ (announced .accounts → ∀ name account, identity = .tenant name account →
        store.snapshot.hierarchy.contains account = true)
  scope key scope :=
    (∀ part : MetadataPart, key.cls ∈ part.classes → announced part) →
      ∀ identity options, store.snapshot.Assigns identity →
        identity.scopeKey? options = some key →
        store.online.computeScope identity options = .ok scope
  rowCount key rows :=
    ∀ table query, key = rowCountKey table query → announced (.rows table) →
      store.snapshot.rowCount table query = rows
  bridge bridge := announced .registry → bridge.Agrees (Catalog.load store.online.registry)

section

variable {announced announced' : MetadataPart → Prop} {store : Store} {master origin : Master}

/-- What a session derives from the store is current. -/
theorem absorbs_current (announced : MetadataPart → Prop) (store : Store) :
    (current announced store).Absorbs store where
  identity username identity hresolve := by
    obtain ⟨husers, haccounts⟩ := (store.resolveIdentity_online_eq_ok_iff username identity).mp
      (Store.resolveIdentity_online hresolve)
    exact ⟨rfl, fun _ => husers, fun _ => haccounts⟩
  scope username identity options key scope hkept hkey hscope hannounced identity' options'
      hassigned hkey' := by
    rcases eq_of_scopeKey?_eq hkey hkey' with
      ⟨name, name', account, rfl, rfl⟩ | ⟨name, hosts, permissions, hosts', permissions',
        rfl, rfl, rfl⟩
    · exact Store.computeScope_online hscope
    · have husers : announced .users := by
        apply hannounced
        rw [← Option.some.inj hkey]
        exact List.mem_cons_of_mem _ List.mem_cons_self
      obtain ⟨hname, hrole⟩ := hkept.2.1 husers
      obtain rfl : name = username := hname
      have hassigned' := hassigned name hosts' permissions' rfl
      obtain ⟨rfl, rfl⟩ := UserRole.scopedOperator.inj
        (Option.some.inj (hrole.symm.trans hassigned'))
      exact Store.computeScope_online hscope
  rowCount s table query hread other query' hkey _ := by
    obtain ⟨rfl, rfl⟩ := rowCountKey_inj hkey
    rw [Store.eq_snapshot_of_read hread]
  view bridge token hkept hannounced :=
    (hkept hannounced).runView (fun _ => Store.load_online) token
  catalog bridge hkept hannounced := ((hkept hannounced).runCatalog fun _ => Store.load_online).1

/-- Where everything is announced and the store can be reached, what is current is what the
store gives. -/
theorem determines_current (hannounced : ∀ part, announced part)
    (havailable : store.isAvailable = true) (username : String) :
    (current announced store).Determines store username where
  identity identity hkept := by
    obtain ⟨-, husers, haccounts⟩ := hkept
    rw [← Store.online_of_isAvailable havailable]
    exact (store.resolveIdentity_online_eq_ok_iff username identity).mpr
      ⟨husers (hannounced _), haccounts (hannounced _)⟩
  scope identity options key scope hresolve hkey hkept := by
    rw [← Store.online_of_isAvailable havailable] at hresolve ⊢
    obtain ⟨⟨hname, hrole⟩, -⟩ :=
      (store.resolveIdentity_online_eq_ok_iff username identity).mp hresolve
    refine hkept (fun part _ => hannounced part) identity options ?_ hkey
    rintro name hosts permissions rfl
    obtain rfl : name = username := hname
    exact hrole
  rowCount table query rows hkept := by
    have hread : store.read = .ok store.snapshot := if_pos havailable
    rw [hread, ← hkept table query rfl (hannounced _)]
    rfl
  bridge bridge hkept := by
    rw [← Store.online_of_isAvailable havailable]
    exact hkept (hannounced _)

namespace Master.Keeps

/-- A change leaves current what was not derived from the part it belongs to. -/
theorem change (h : master.Keeps (current announced store) origin)
    (change : Store.Change)
    (hparts : ∀ part, announced' part → announced part ∧ change.part ≠ part) :
    master.Keeps (current announced' (store.change change)) origin := by
  refine h.mono ?_ ?_ ?_ ?_
  · rintro key identity ⟨hcls, husers, haccounts⟩
    refine ⟨hcls, fun husers' => ?_, fun haccounts' => ?_⟩
    · obtain ⟨hbefore, hpart⟩ := hparts _ husers'
      change _ ∧ (change.apply store.snapshot).users[key.subject]? = _
      rw [Store.Change.users_apply hpart]
      exact husers hbefore
    · obtain ⟨hbefore, hpart⟩ := hparts _ haccounts'
      change ∀ name account, _ → (change.apply store.snapshot).hierarchy.contains account = true
      rw [Store.Change.hierarchy_apply hpart]
      exact haccounts hbefore
  · intro key scope hkept hannounced identity options hassigned hkey
    rw [Store.computeScope_change hkey fun part hpart => (hparts part (hannounced part hpart)).2]
    have hbefore (part : MetadataPart) (hpart : key.cls ∈ part.classes) : announced part :=
      (hparts part (hannounced part hpart)).1
    refine hkept hbefore identity options ?_ hkey
    rintro username hosts permissions rfl
    have hpart : change.part ≠ .users := by
      apply (hparts .users (hannounced _ _)).2
      rw [← Option.some.inj hkey]
      exact List.mem_cons_of_mem _ List.mem_cons_self
    rw [← Store.Change.users_apply hpart]
    exact hassigned username hosts permissions rfl
  · intro key rows hkept table query hkey hannounced
    obtain ⟨hbefore, hpart⟩ := hparts _ hannounced
    exact (Store.Change.rowCount_apply hpart query).trans (hkept table query hkey hbefore)
  · intro hkept hannounced
    obtain ⟨hbefore, hpart⟩ := hparts _ hannounced
    rw [Store.registry_change hpart]
    exact hkept hbefore

/-- An announcement brings back the parts that have its table: nothing derived from them is
left. -/
theorem announce_current (h : master.Keeps (current announced store) origin)
    (hcover : origin.invalidation.Cover) (event : InvalidationEvent)
    (hparts : ∀ part, announced' part → announced part ∨ event.table ∈ part.tables) :
    (master.announce event).2.Keeps (current announced' store) origin := by
  -- A class that is left was not derived from a part that the event brings back.
  have hleft (cls : ResourceClass) (hcls : cls ∉ origin.invalidation.classesFor event.table)
      (part : MetadataPart) (hpart : cls ∈ part.classes) (hannounced : announced' part) :
      announced part :=
    (hparts part hannounced).resolve_right fun htable =>
      hcls (hcover part event.table htable cls hpart)
  refine (h.announce event).mono ?_ ?_ ?_ ?_
  · rintro key identity ⟨hgone, hcls, husers, haccounts⟩
    rw [hcls] at hgone
    exact ⟨hcls, fun husers' => husers (hleft _ hgone .users (by decide) husers'),
      fun haccounts' => haccounts (hleft _ hgone .accounts (by decide) haccounts')⟩
  · rintro key scope ⟨hgone, hkept⟩ hannounced
    exact hkept fun part hpart => hleft _ hgone part hpart (hannounced part hpart)
  · rintro key rows ⟨hgone, hkept⟩ table query rfl hannounced
    exact hkept table query rfl (hleft _ hgone (.rows table) List.mem_cons_self hannounced)
  · rintro ⟨hempty, hkept⟩ hannounced
    by_cases hgone : ResourceClass.protocolMetadata ∈ origin.invalidation.classesFor event.table
    · obtain ⟨hcatalog, hviews⟩ := hempty hgone
      exact Bridge.agrees_of_empty hcatalog hviews _
    · exact hkept hgone (hleft _ hgone .registry (by decide) hannounced)

end Master.Keeps

/-- Less need be announced for a weaker claim. -/
theorem keeps_current_mono (h : master.Keeps (current announced store) origin)
    (hparts : ∀ part, announced' part → announced part) :
    master.Keeps (current announced' store) origin := by
  apply h.mono
  · intro key identity hkept
    obtain ⟨hcls, husers, haccounts⟩ := hkept
    exact ⟨hcls, fun hannounced => husers (hparts _ hannounced),
      fun hannounced => haccounts (hparts _ hannounced)⟩
  · intro key scope hkept hannounced
    apply hkept
    intro part hpart
    exact hparts part (hannounced part hpart)
  · intro key rows hkept table query hkey hannounced
    exact hkept table query hkey (hparts _ hannounced)
  · intro hkept hannounced
    exact hkept (hparts _ hannounced)

/-! ## Whole runs -/

/-- Whatever happens, except requests for identities that are not looked up, leaves the master
with nothing but what is current as far as announcements can tell. -/
theorem keeps_current_run {w : World}
    (hstart : w.master.Keeps (current (Announced []) w.store) origin)
    (hcover : origin.invalidation.Cover) {steps : List WorldStep}
    (hsessions : ∀ identity request, .askAs identity request ∉ steps) :
    (w.run steps).master.Keeps (current (Announced steps) (w.run steps).store) origin := by
  induction steps using List.reverseRecOn with
  | nil => exact hstart
  | append_singleton steps step ih =>
      have hbefore := ih fun identity request hmem =>
        hsessions identity request (List.mem_append_left _ hmem)
      rw [World.run_concat]
      -- Unless the step is an announcement, what is announced now was announced before.
      have hkept (hquiet : ∀ event, step ≠ .announce event) :
          (w.run steps).master.Keeps (current (Announced (steps ++ [step])) (w.run steps).store)
            origin :=
        keeps_current_mono hbefore fun part hpart =>
          announced_of_append hpart fun event hstep => absurd hstep (hquiet event)
      cases step with
      | change change =>
          exact hbefore.change change fun part hpart =>
            ⟨announced_of_append hpart (fun event hstep => by cases hstep),
              part_ne_of_announced_change hpart⟩
      | announce event =>
          refine hbefore.announce_current hcover event fun part hpart => ?_
          by_cases htable : event.table ∈ part.tables
          · exact .inr htable
          · refine .inl (announced_of_append hpart fun other hstep => ?_)
            cases hstep
            exact htable
      | setAvailable isAvailable => exact hkept fun event hstep => by cases hstep
      | moveClock move => exact hkept fun event hstep => by cases hstep
      | purge => exact (hkept fun event hstep => by cases hstep).purge _
      | ask session request =>
          exact (hkept fun event hstep => by cases hstep).answer _ (absorbs_current _ _) session
            request
      | askAs identity request =>
          exact absurd (List.mem_append_right _ List.mem_cons_self) (hsessions identity request)

/-- Set up a master with any accepted configuration over any store, and let anything happen to
both except requests for identities that are not looked up. Whenever the store can be reached
and every change was followed by an announcement of a table of its part, each request of each
session is answered, with a value or with a fault, as if nothing were ever kept. -/
theorem session_answer_eq_uncached {config : Config} (hvalid : config.validate = .ok ())
    (store : Store) (now : Tick) :
    ∃ master, Master.create config store.rules = .ok master
      ∧ ∀ steps : List WorldStep, (∀ identity request, .askAs identity request ∉ steps) →
        (∀ part, Announced steps part) →
        let w := World.run ⟨store, now, master⟩ steps
        w.store.isAvailable = true →
        ∀ (session : Session) (request : SessionRequest),
          (session.answer w.env request w.master).1 = w.store.answer session request := by
  obtain ⟨master, hcreate, hnew⟩ := Master.exists_create_of_validate hvalid store.rules
  have hstart : master.Keeps (current (Announced []) store) master := by
    apply Master.keeps_of_isCold hnew.isCold
    intro _
    rw [hnew.bridge_eq]
    exact Bridge.agrees_of_empty rfl rfl _
  refine ⟨master, hcreate, ?_⟩
  intro steps hsessions hannounced w havailable session request
  have hkeeps := keeps_current_run (w := ⟨store, now, master⟩) hstart hnew.cover hsessions
  have hrules' : master.rules = w.env.store.rules :=
    hnew.rules_eq.trans (World.rules_run ⟨store, now, master⟩ steps).symm
  exact hkeeps.answer_fst hrules' (absorbs_current _ _)
    (determines_current hannounced havailable _) request

end

/-- An operator's session that asks before and after its reassignment is told of the new host
as soon as the reassignment was announced. -/
theorem session_answer_eq_uncached_of_reassignment :
    ({} : Config).validate = .ok ()
      ∧ ∃ master, Master.create {} backupStore.rules = .ok master
        ∧ let w := World.run ⟨backupStore, .zero, master⟩
            [.ask opsSession (.authorize "backups"), .change reassignment,
              .ask opsSession (.authorize "backups"), .announce { table := "operators" }]
          (opsSession.answer w.env (.authorize "backups") w.master).1 =
            .ok (.scope (.hosts {⟨2⟩})) := by
  have hvalid : ({} : Config).validate = .ok () := rfl
  refine ⟨hvalid, ?_⟩
  obtain ⟨master, hcreate, hanswer⟩ := session_answer_eq_uncached hvalid backupStore .zero
  refine ⟨master, hcreate, ?_⟩
  refine (hanswer _ ?_ ?_ rfl opsSession (.authorize "backups")).trans ?_
  · simp
  · intro part before change after hsteps hpart
    rcases before with _ | ⟨_, _ | ⟨_, _ | ⟨_, _ | ⟨_, before⟩⟩⟩⟩
    · simp at hsteps
    · obtain ⟨-, rfl, rfl⟩ : _ ∧ reassignment = change ∧ _ = after := by simpa using hsteps
      subst hpart
      exact ⟨{ table := "operators" }, by simp, by decide⟩
    · simp at hsteps
    · simp at hsteps
    · simp at hsteps
  · change (backupStore.change reassignment).answer opsSession (.authorize "backups") = _
    rfl

end ControlPlane
