/-
# Runs of a master and its store

A world is a store, a clock and a master, and a run is any list of things that can happen to
it: the store changes or goes away, changes are announced, the clock is set, the master
purges or answers. Nothing couples a change to its announcement. What a run says about that
is a property of its list of steps: whether every change to a part of the metadata was
followed by an announcement of one of the part's tables.
-/

import ControlPlane.Proofs.Master.Keeping

namespace ControlPlane

/-! ## Parts of the metadata -/

/-- A part of the metadata that changes on its own. -/
inductive MetadataPart
  | accounts
  | users
  | hosts
  | registry
  | rows (table : String)

namespace MetadataPart

/-- The tables of a part, as announcements name them. -/
def tables : MetadataPart → List String
  | .accounts => ["accounts"]
  | .users => ["users", "operators", "operator_hosts"]
  | .hosts => ["servers", "server_failover", "server_replication"]
  | .registry => ["protocol_versions", "table_descriptors", "column_descriptors"]
  | .rows table => [table]

/-- The classes of the data that are derived from a part. -/
def classes : MetadataPart → List ResourceClass
  | .accounts => [.tenantHierarchy, .identity]
  | .users => [.identity, .hostTopology]
  | .hosts => [.hostTopology]
  | .registry => [.protocolMetadata]
  | .rows table => [.rowCount table]

end MetadataPart

/-- The part that a change belongs to. -/
def Store.Change.part : Store.Change → MetadataPart
  | .upsertAccount .. | .removeAccount _ => .accounts
  | .upsertHost _ => .hosts
  | .upsertUser .. | .removeUser _ => .users
  | .insertTable .. | .addVersion _ => .registry
  | .addRow row => .rows row.table

/-! ## Worlds -/

/-- A master, its store and the reading of the clock. -/
structure World where
  store : Store
  now : Tick
  master : Master

/-- A request with an identity that the caller has from somewhere. -/
inductive DirectRequest
  | authorize (table : String)
  | scopedQuery (table : String)
  | rowCount (table : String)

/-- The table that a request is about. -/
def DirectRequest.table : DirectRequest → String
  | .authorize table | .scopedQuery table | .rowCount table => table

/-- Something that happens to a world. -/
inductive WorldStep
  | change (change : Store.Change)
  | setAvailable (isAvailable : Bool)
  | announce (event : InvalidationEvent)
  /-- The clock is set, forward or backward. -/
  | moveClock (move : Tick → Tick)
  | purge
  /-- A session asks; its identity is looked up. -/
  | ask (session : Session) (request : SessionRequest)
  /-- Somebody asks on behalf of an identity that is not looked up. -/
  | askAs (identity : Identity) (request : DirectRequest)

namespace World

/-- What a request finds around it. -/
def env (w : World) : Surroundings :=
  ⟨w.store, w.now⟩

/-- The master after a request on behalf of an identity. -/
def masterAfter (w : World) (identity : Identity) : DirectRequest → Master
  | .authorize table => (w.master.authorize w.env identity table).2
  | .scopedQuery table => (w.master.scopedQuery w.env identity table).2
  | .rowCount table => (w.master.rowCount w.env identity table).2

def step (w : World) : WorldStep → World
  | .change change => { w with store := w.store.change change }
  | .setAvailable isAvailable => { w with store := { w.store with isAvailable } }
  | .announce event => { w with master := (w.master.announce event).2 }
  | .moveClock move => { w with now := move w.now }
  | .purge => { w with master := (w.master.purge w.now).2 }
  | .ask session request => { w with master := (session.answer w.env request w.master).2 }
  | .askAs identity request => { w with master := w.masterAfter identity request }

def run (w : World) (steps : List WorldStep) : World :=
  steps.foldl step w

@[simp]
theorem run_nil (w : World) : w.run [] = w := rfl

@[simp]
theorem run_append (w : World) (steps steps' : List WorldStep) :
    w.run (steps ++ steps') = (w.run steps).run steps' :=
  List.foldl_append

@[simp]
theorem run_cons (w : World) (step : WorldStep) (steps : List WorldStep) :
    w.run (step :: steps) = (w.step step).run steps := rfl

theorem run_concat (w : World) (steps : List WorldStep) (step : WorldStep) :
    w.run (steps ++ [step]) = (w.run steps).step step := by
  rw [run_append, run_cons, run_nil]

/-- Nothing that happens changes the rules of the tables. -/
theorem rules_run (w : World) (steps : List WorldStep) :
    (w.run steps).store.rules = w.store.rules := by
  induction steps generalizing w with
  | nil => rfl
  | cons step steps ih =>
      rw [run_cons, ih]
      cases step <;> rfl

end World

/-! ## What a step keeps -/

namespace Master.Keeps

variable {kept : Kept} {origin : Master} {w : World}

theorem masterAfter (h : w.master.Keeps kept origin) (identity : Identity)
    (request : DirectRequest)
    (hnew : kept.TakesScopes w.store origin.rules identity request.table)
    (hcount : ∀ s table query, w.store.read = .ok s →
      kept.rowCount (rowCountKey table query) (s.rowCount table query)) :
    (w.masterAfter identity request).Keeps kept origin := by
  cases request with
  | authorize table => exact h.authorize w.env table hnew
  | scopedQuery table => exact h.scopedQuery w.env table hnew
  | rowCount table => exact h.rowCount w.env table hnew fun s => hcount s table

/-- A step keeps nothing but what it derives from the store. Of the identities that are not
looked up it is asked that their scopes have the property. -/
theorem step (h : w.master.Keeps kept origin) (habsorbs : kept.Absorbs w.store)
    (hempty : ∀ bridge, bridge.catalog = none → bridge.views = ∅ → kept.bridge bridge)
    (step : WorldStep)
    (hdirect : ∀ identity request, step = .askAs identity request →
      kept.TakesScopes w.store origin.rules identity request.table) :
    (w.step step).master.Keeps kept origin := by
  cases step with
  | change change => exact h
  | setAvailable isAvailable => exact h
  | announce event =>
      refine (h.announce event).mono (fun _ _ hleft => hleft.2) (fun _ _ hleft => hleft.2)
        (fun _ _ hleft => hleft.2) ?_
      rintro ⟨hdropped, hleft⟩
      by_cases hgone : ResourceClass.protocolMetadata ∈ origin.invalidation.classesFor event.table
      · obtain ⟨hcatalog, hviews⟩ := hdropped hgone
        exact hempty _ hcatalog hviews
      · exact hleft hgone
  | moveClock move => exact h
  | purge => exact h.purge w.now
  | ask session request => exact h.answer w.env habsorbs session request
  | askAs identity request =>
      exact h.masterAfter identity request (hdirect identity request rfl)
        fun s table query => habsorbs.rowCount s table query

end Master.Keeps

namespace World

/-- Nothing that happens changes the rules a master goes by. -/
theorem masterRules_step (w : World) (step : WorldStep) :
    (w.step step).master.rules = w.master.rules := by
  have hkeeps := w.master.keeps_anything.step (Kept.absorbs_anything w.store)
    (fun _ _ _ => trivial) step fun _ _ _ _ _ _ _ _ _ _ _ => trivial
  exact hkeeps.rules_eq

theorem masterRules_run (w : World) (steps : List WorldStep) :
    (w.run steps).master.rules = w.master.rules := by
  induction steps generalizing w with
  | nil => rfl
  | cons step steps ih => rw [run_cons, ih, masterRules_step]

end World

/-! ## Announced changes -/

/-- Every change to a part was followed by an announcement of one of the part's tables. -/
def Announced (steps : List WorldStep) (part : MetadataPart) : Prop :=
  ∀ before change after, steps = before ++ .change change :: after → change.part = part →
    ∃ event, .announce event ∈ after ∧ event.table ∈ part.tables

variable {steps : List WorldStep} {part : MetadataPart}

/-- A part that has just changed is not announced. -/
theorem part_ne_of_announced_change {change : Store.Change}
    (h : Announced (steps ++ [.change change]) part) : change.part ≠ part := by
  intro hpart
  obtain ⟨event, hevent, -⟩ := h steps change [] rfl hpart
  cases hevent

/-- Only an announcement of a part's table makes the part announced. -/
theorem announced_of_append {step : WorldStep} (h : Announced (steps ++ [step]) part)
    (hother : ∀ event, step = .announce event → event.table ∉ part.tables) :
    Announced steps part := by
  rintro before change after rfl hpart
  obtain ⟨event, hevent, htable⟩ := h before change (after ++ [step]) (by simp) hpart
  rcases List.mem_append.mp hevent with hafter | hlast
  · exact ⟨event, hafter, htable⟩
  · exact absurd htable (hother event (List.mem_singleton.mp hlast).symm)

/-! ## A store to run on -/

/-- Backups lie on hosts. -/
def backupRule : TableRule where
  table := "backups"
  scoping := .hostTopology "host_id"

/-- Two hosts with a backup each, and an operator of the first. -/
def backupStore : Store where
  snapshot := .ofDocument {
    root := ⟨1⟩
    hosts := [{ id := ⟨1⟩ }, { id := ⟨2⟩ }]
    users := [{ username := "ops", role := .scopedOperator {⟨1⟩} ∅ }]
    rows := [{ table := "backups", host := some ⟨1⟩ }, { table := "backups", host := some ⟨2⟩ }] }
  rules := { byTable := Std.ExtTreeMap.ofList [("backups", backupRule)] }

/-- A session of the operator. -/
def opsSession : Session where
  username := "ops"
  version := "v1"
  connection := ⟨0⟩

/-- The operator moves from the first host to the second. -/
def reassignment : Store.Change :=
  .upsertUser "ops" (.scopedOperator {⟨2⟩} ∅)

end ControlPlane
