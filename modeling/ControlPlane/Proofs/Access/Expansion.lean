/-
# One hop of the host topology

An assignment is expanded by asking the store about each assigned host: for the host it fails
over to, which is read off its record, and for those that fail over to it, which are searched
for among all records. Here both are one relation, read along a link and against it.

That needs every record to be kept under its own id, and so it is of any store that a
document was loaded into, whatever it went through since. A record may name itself, a host
that has no record, or one that others name too.
-/

import ControlPlane.Proofs.Access.Visibility
import ControlPlane.Proofs.Master.Derivation
import ControlPlane.Proofs.Metadata.Consistency

namespace ControlPlane

open Std (ExtTreeMap ExtTreeSet)

/-! ## Links between hosts -/

namespace Snapshot

variable {s : Snapshot}

/-- The record of a host names another as the one that takes over. -/
def FailsOverTo (s : Snapshot) (host parent : HostId) : Prop :=
  ∃ record : HostRecord, s.hosts[host]? = some record ∧ record.failoverParent = some parent

/-- The record of a host names another as one that receives its backups. -/
def ReplicatesTo (s : Snapshot) (host target : HostId) : Prop :=
  ∃ record : HostRecord, s.hosts[host]? = some record ∧ target ∈ record.replicationTargets

/-- One hop leads from a host to another, or none does and they are the same. -/
def WithinOneHop (s : Snapshot) (options : ScopeOptions) (host other : HostId) : Prop :=
  other = host
    ∨ s.FailsOverTo host other
    ∨ s.FailsOverTo other host
    ∨ (options.includeReplication = true ∧ s.ReplicatesTo host other)

/-- Every record of a host is kept under the id it gives. -/
def FilesHosts (s : Snapshot) : Prop :=
  ∀ (key : HostId) (record : HostRecord), s.hosts[key]? = some record → record.id = key

/-- Where records are kept under their own ids, the scan finds the hosts whose own record
names the host that is asked about. -/
theorem reveals_iff (hfiled : s.FilesHosts) (options : ScopeOptions) (host other : HostId) :
    s.Reveals options host other ↔ s.WithinOneHop options host other := by
  have hscan : (∃ (key : HostId) (record : HostRecord), s.hosts[key]? = some record
      ∧ record.failoverParent = some host ∧ record.id = other) ↔ s.FailsOverTo other host := by
    constructor
    · rintro ⟨key, record, hkept, hparent, hid⟩
      have hkey : key = other := (hfiled key record hkept).symm.trans hid
      exact ⟨record, hkey ▸ hkept, hparent⟩
    · rintro ⟨record, hkept, hparent⟩
      exact ⟨other, record, hkept, hparent, hfiled other record hkept⟩
  unfold Reveals WithinOneHop
  rw [hscan]
  rfl

/-- Without replication a hop can be taken back. -/
theorem WithinOneHop.back {options : ScopeOptions} {host other : HostId}
    (hplain : options.includeReplication = false) (h : s.WithinOneHop options host other) :
    s.WithinOneHop options other host := by
  rcases h with hsame | hparent | hchild | ⟨hreplication, -⟩
  · exact .inl hsame.symm
  · exact .inr (.inr (.inl hparent))
  · exact .inr (.inl hchild)
  · cases hplain.symm.trans hreplication

/-- Counting replication in leads no hop elsewhere, and to further hosts only. -/
theorem WithinOneHop.mono {options wider : ScopeOptions} {host other : HostId}
    (hwider : options.includeReplication = true → wider.includeReplication = true)
    (h : s.WithinOneHop options host other) : s.WithinOneHop wider host other :=
  h.imp_right (Or.imp_right (Or.imp_right (And.imp_left hwider)))

/-- What is asked of a way to expand assignments over a snapshot. -/
structure ExpandsByOneHop (s : Snapshot)
    (expand : ScopeOptions → ExtTreeSet HostId → ExtTreeSet HostId) : Prop where
  mem_iff (options : ScopeOptions) (assigned : ExtTreeSet HostId) (other : HostId) :
    other ∈ expand options assigned ↔ ∃ host ∈ assigned, s.WithinOneHop options host other
  union_eq (options : ScopeOptions) (assigned assigned' : ExtTreeSet HostId) :
    expand options (assigned ∪ assigned') = expand options assigned ∪ expand options assigned'
  mono (options wider : ScopeOptions) (assigned larger : ExtTreeSet HostId) :
    (options.includeReplication = true → wider.includeReplication = true) →
      (∀ host ∈ assigned, host ∈ larger) →
        ∀ other ∈ expand options assigned, other ∈ expand wider larger
  contains (options : ScopeOptions) (assigned : ExtTreeSet HostId) :
    ∀ host ∈ assigned, host ∈ expand options assigned
  symmetric (options : ScopeOptions) (host other : HostId) :
    options.includeReplication = false →
      (other ∈ expand options {host} ↔ host ∈ expand options {other})

/-- Whoever finds exactly what is within one hop treats assigned hosts one by one. -/
theorem expandsByOneHop_of_mem_iff
    {expand : ScopeOptions → ExtTreeSet HostId → ExtTreeSet HostId}
    (h : ∀ options assigned other, other ∈ expand options assigned ↔
      ∃ host ∈ assigned, s.WithinOneHop options host other) : s.ExpandsByOneHop expand where
  mem_iff := h
  union_eq options assigned assigned' := by
    ext other
    simp only [h, ExtTreeSet.mem_union_iff, or_and_right, exists_or]
  mono options wider assigned larger hwider hlarger other hother := by
    obtain ⟨host, hhost, hhop⟩ := (h options assigned other).mp hother
    exact (h wider larger other).mpr ⟨host, hlarger host hhost, hhop.mono hwider⟩
  contains options assigned host hhost := (h options assigned host).mpr ⟨host, hhost, .inl rfl⟩
  symmetric options host other hplain := by
    have hsingle (one another : HostId) :
        another ∈ expand options {one} ↔ s.WithinOneHop options one another := by
      rw [h]
      simp
    rw [hsingle, hsingle]
    exact ⟨WithinOneHop.back hplain, WithinOneHop.back hplain⟩

theorem expandsByOneHop (hfiled : s.FilesHosts) :
    s.ExpandsByOneHop fun options assigned => s.topology.expand assigned options := by
  apply expandsByOneHop_of_mem_iff
  intro options assigned other
  rw [mem_expand_iff]
  simp only [reveals_iff hfiled]

/-! ## Stores that a document was loaded into -/

/-- Setting the record of a host is the only change that touches records. -/
theorem FilesHosts.apply (h : s.FilesHosts) (change : Store.Change) :
    (change.apply s).FilesHosts := by
  cases change with
  | upsertHost host =>
      intro key record hkept
      change (s.hosts.insert host.id host)[key]? = some record at hkept
      rw [getElem?_insert_eq_ite] at hkept
      split at hkept
      · next hkey =>
          obtain rfl := Option.some.inj hkept
          exact hkey
      · exact h key record hkept
  | _ => exact h

end Snapshot

namespace Store

theorem filesHosts_of_ofDocument {doc : MetadataDocument} {store : Store}
    (h : ofDocument doc = .ok store) : store.snapshot.FilesHosts := by
  have hkeys := MetadataDocument.hasDistinctKeys_of_validate (of_ofDocument h).1
  simp only [ofDocument, bind_eq_ok_iff] at h
  obtain ⟨_, -, rules, -, h⟩ := h
  obtain rfl := Except.ok.inj h
  intro key record hkept
  obtain ⟨item, -, hid, rfl⟩ := (getElem?_ofList_map_eq_some_iff hkeys.hosts).mp hkept
  exact hid

/-- The stores that a document was loaded into: right after that, after a further change, and
after the store went out of reach or came back. -/
inductive Arises : Store → Prop
  | loaded {doc : MetadataDocument} {store : Store} (hload : ofDocument doc = .ok store) :
      Arises store
  | changed {store : Store} (hbefore : Arises store) (change : Change) :
      Arises (store.change change)
  | switched {store : Store} (hbefore : Arises store) (isAvailable : Bool) :
      Arises { store with isAvailable }

theorem Arises.filesHosts {store : Store} (h : store.Arises) :
    store.snapshot.FilesHosts := by
  induction h with
  | loaded hload => exact filesHosts_of_ofDocument hload
  | changed hbefore change ih => exact ih.apply change
  | switched hbefore isAvailable ih => exact ih

/-- A store that can be reached expands every assignment, to exactly what is within one hop of
an assigned host. One that cannot be reached expands nothing but the empty assignment, for which
it is not asked. -/
theorem expandHosts_withinOneHop {store : Store} (h : store.Arises) :
    (store.isAvailable = true →
      ∃ expand, (∀ options assigned,
          store.expandHosts assigned options = .ok (expand options assigned))
        ∧ store.snapshot.ExpandsByOneHop expand)
      ∧ (store.isAvailable = false → ∀ options assigned,
          store.expandHosts assigned options =
            if assigned = ∅ then .ok ∅ else .error (.metadata .storeUnavailable)) := by
  constructor
  · intro havailable
    have hread : store.read = .ok store.snapshot := by simp [read, havailable]
    exact ⟨fun options assigned => store.snapshot.topology.expand assigned options,
      fun options assigned => expandHosts_eq hread assigned options,
      Snapshot.expandsByOneHop h.filesHosts⟩
  · intro houtage options assigned
    unfold expandHosts
    simp only [ExtTreeSet.isEmpty_iff, read_of_not_isAvailable houtage]
    rfl

/-- A pair of hosts, one of which takes over from the other. -/
def pairDocument : MetadataDocument where
  root := ⟨1⟩
  accounts := [{ id := ⟨1⟩ }]
  hosts := [{ id := ⟨5⟩, failoverParent := some ⟨6⟩ }, { id := ⟨6⟩ }]

/-- The store that the document is loaded into. -/
def pairStore : Store where
  snapshot := .ofDocument pairDocument
  rules := {}

/-- The second host of the pair comes to fail over to one that has no record, and to replicate
to another that has none. What has no record can still be assigned, and seen. -/
theorem expandHosts_withinOneHop_of_pair :
    let store := pairStore.change (.upsertHost ⟨⟨6⟩, some ⟨7⟩, {⟨8⟩}⟩)
    let sixth : ExtTreeSet HostId := {⟨6⟩}
    let seventh : ExtTreeSet HostId := {⟨7⟩}
    (∃ expand : ScopeOptions → ExtTreeSet HostId → ExtTreeSet HostId,
      (∀ options assigned, store.expandHosts assigned options = .ok (expand options assigned))
        ∧ (⟨5⟩ : HostId) ∈ expand {} sixth
        ∧ (⟨7⟩ : HostId) ∈ expand {} sixth
        ∧ (⟨6⟩ : HostId) ∈ expand {} seventh
        ∧ (⟨8⟩ : HostId) ∈ expand { includeReplication := true } sixth)
      ∧ { store with isAvailable := false : Store }.expandHosts sixth {} =
          .error (.metadata .storeUnavailable) := by
  intro store sixth seventh
  have hload : ofDocument pairDocument = .ok pairStore := by decide +kernel
  have harises : store.Arises := (Arises.loaded hload).changed _
  have hkept : store.snapshot.hosts[(⟨6⟩ : HostId)]? = some ⟨⟨6⟩, some ⟨7⟩, {⟨8⟩}⟩ :=
    ExtTreeMap.getElem?_insert_self
  constructor
  · obtain ⟨expand, hok, hexpands⟩ := (expandHosts_withinOneHop harises).1 rfl
    have hparent : store.snapshot.FailsOverTo ⟨6⟩ ⟨7⟩ := ⟨_, hkept, rfl⟩
    have hchild : store.snapshot.FailsOverTo ⟨5⟩ ⟨6⟩ :=
      ⟨{ id := ⟨5⟩, failoverParent := some ⟨6⟩ }, by decide +kernel, rfl⟩
    have hseen : ⟨7⟩ ∈ expand {} sixth :=
      (hexpands.mem_iff {} sixth ⟨7⟩).mpr ⟨⟨6⟩, by decide, .inr (.inl hparent)⟩
    refine ⟨expand, hok, ?_, hseen, (hexpands.symmetric {} ⟨6⟩ ⟨7⟩ rfl).mp hseen, ?_⟩
    · exact (hexpands.mem_iff {} sixth ⟨5⟩).mpr ⟨⟨6⟩, by decide, .inr (.inr (.inl hchild))⟩
    · exact (hexpands.mem_iff _ sixth ⟨8⟩).mpr
        ⟨⟨6⟩, by decide, .inr (.inr (.inr ⟨rfl, _, hkept, by decide⟩))⟩
  · exact ((expandHosts_withinOneHop (harises.switched false)).2 rfl {} sixth).trans
      (if_neg (by decide))

end Store

end ControlPlane
