/-
# Who shares a row count

Row counts are kept under the filter that they were counted with, written as a JSON text. The text
tells every two filters apart, whatever names and numbers stand in them. So a count that is kept
answers only those who ask about the same table and are given the same filter, and it is what the
row source answered when it was asked about that table with that filter.

To say so, a run here keeps a log of the questions that the row source was asked. No operation
reads the log. The row source may be any function, and a different one each time. What becomes of
the other parts of a master is left open.
-/

import ControlPlane.Proofs.Cache.Sections
import ControlPlane.Proofs.Master.Creation
import ControlPlane.Proofs.Master.Keys
import ControlPlane.Proofs.Master.Resolving
import ControlPlane.Proofs.Master.Run
import ControlPlane.Proofs.Master.RowVisibility

namespace ControlPlane

/-! ## Row sources -/

/-- Whatever counts the rows of a table that a filter lets through. -/
abbrev RowSource := String → QueryScope → Except Fault UInt64

def Store.rowSource (store : Store) : RowSource :=
  fun table query => store.read.map fun s => s.rowCount table query

/-- A question that a row source was asked, and its answer. -/
structure CountCall where
  table : String
  query : QueryScope
  answer : Except Fault UInt64
deriving DecidableEq

namespace Master

variable {master : Master} {env : Surroundings} {identity : Identity} {table : String}
  {source source' : RowSource} {calls more : List CountCall} {rows : UInt64}

/-- How many rows of a table an identity sees, by the word of a row source. -/
def rowCountBy (master : Master) (source : RowSource) (env : Surroundings) (identity : Identity)
    (table : String) : Except Fault UInt64 × Master :=
  match master.scopedQuery env identity table with
  | (.error fault, master) => (.error fault, master)
  | (.ok query, master) =>
      let (result, rowCounts, metrics) :=
        master.rowCounts.getOrCompute master.metrics (rowCountKey table query) env.now
          fun m => (source table query, m)
      (result, { master with rowCounts, metrics })

/-- A master counts by the word of its store. -/
theorem rowCountBy_rowSource (master : Master) (env : Surroundings) (identity : Identity)
    (table : String) :
    master.rowCountBy env.store.rowSource env identity table =
      master.rowCount env identity table := rfl

/-- What the row source is asked meanwhile: nothing if there is no filter or if a count is kept
that can be served, and otherwise one question. -/
def countCalls (master : Master) (source : RowSource) (env : Surroundings) (identity : Identity)
    (table : String) : List CountCall :=
  match master.scopedQuery env identity table with
  | (.error _, _) => []
  | (.ok query, master) =>
      match master.rowCounts.peek (rowCountKey table query) env.now with
      | some _ => []
      | none => [⟨table, query, source table query⟩]

/-- A count depends on nothing else that the row source would say. -/
theorem rowCountBy_congr
    (h : ∀ call ∈ master.countCalls source env identity table,
      source' call.table call.query = call.answer) :
    master.rowCountBy source' env identity table = master.rowCountBy source env identity table := by
  unfold countCalls at h
  unfold rowCountBy
  rcases hrun : master.scopedQuery env identity table with ⟨fault | query, master'⟩
  · rfl
  · rw [hrun] at h
    simp only at h ⊢
    cases hpeek : master'.rowCounts.peek (rowCountKey table query) env.now with
    | some kept => simp only [AccessCache.getOrCompute, AccessCache.lookup_of_peek_eq_some hpeek]
    | none =>
        rw [hpeek] at h
        rw [h ⟨table, query, source table query⟩ List.mem_cons_self]

/-! ## Counts that were asked for -/

theorem exists_authorize_snd (master : Master) (env : Surroundings) (identity : Identity)
    (table : String) :
    ∃ resolver metrics,
      (master.authorize env identity table).2 = { master with resolver, metrics } := by
  unfold authorize
  split
  · exact ⟨_, _, rfl⟩
  · split
    · exact ⟨_, _, rfl⟩
    · exact ⟨_, _, rfl⟩

/-- To find a filter a master may look scopes up, and does nothing else. -/
theorem exists_scopedQuery_snd (master : Master) (env : Surroundings) (identity : Identity)
    (table : String) :
    ∃ resolver metrics,
      (master.scopedQuery env identity table).2 = { master with resolver, metrics } := by
  rw [scopedQuery_snd]
  exact master.exists_authorize_snd env identity table

end Master

/-- A count is kept for a table and a filter that the row source gave it for. -/
def IsLogged (calls : List CountCall) (key : CacheKey) (rows : UInt64) : Prop :=
  ∃ table query, key = rowCountKey table query ∧ ⟨table, query, .ok rows⟩ ∈ calls

theorem IsLogged.append {calls : List CountCall} {key : CacheKey} {rows : UInt64}
    (h : IsLogged calls key rows) (more : List CountCall) : IsLogged (calls ++ more) key rows := by
  obtain ⟨table, query, hkey, hcall⟩ := h
  exact ⟨table, query, hkey, List.mem_append_left more hcall⟩

/-- A count that is kept under a filter was given for it. -/
theorem mem_of_isLogged_rowCountKey {calls : List CountCall} {table : String} {query : QueryScope}
    {rows : UInt64} (h : IsLogged calls (rowCountKey table query) rows) :
    ⟨table, query, .ok rows⟩ ∈ calls := by
  obtain ⟨table', query', hkey, hcall⟩ := h
  obtain ⟨rfl, rfl⟩ := rowCountKey_inj hkey
  exact hcall

/-- It is enough that a computed value has a property if there was nothing to serve. -/
theorem AccessCache.Holds.getOrCompute_of_missed {α ε : Type} {c : AccessCache α}
    {P : CacheKey → α → Prop} (h : c.Holds P) (m : Metrics) (key : CacheKey) (now : Tick)
    (compute : Metrics → Except ε α × Metrics)
    (hcompute : c.peek key now = none → ∀ m' value, (compute m').1 = .ok value → P key value) :
    (c.getOrCompute m key now compute).2.1.Holds P
      ∧ ∀ value, (c.getOrCompute m key now compute).1 = .ok value → P key value := by
  cases hpeek : c.peek key now with
  | some kept =>
      obtain ⟨entry, hentry, -, rfl⟩ := peek_eq_some_iff.mp hpeek
      rw [AccessCache.getOrCompute, lookup_of_peek_eq_some hpeek]
      refine ⟨h, ?_⟩
      rintro value ⟨⟩
      exact h hentry
  | none => exact ⟨h.getOrCompute (hcompute hpeek), fun _ => h.of_getOrCompute (hcompute hpeek)⟩

namespace Master

variable {master : Master} {calls : List CountCall}

/-- Where every count that is kept was asked for, so is every count that is given. -/
theorem isLogged_rowCountBy (h : master.rowCounts.Holds (IsLogged calls)) (source : RowSource)
    (env : Surroundings) (identity : Identity) (table : String) :
    let calls' := calls ++ master.countCalls source env identity table
    (master.rowCountBy source env identity table).2.rowCounts.Holds (IsLogged calls')
      ∧ ∀ rows, (master.rowCountBy source env identity table).1 = .ok rows →
        ∃ query, (master.scopedQuery env identity table).1 = .ok query
          ∧ IsLogged calls' (rowCountKey table query) rows := by
  intro calls'
  have hlogged : master.rowCounts.Holds (IsLogged calls') := h.mono fun _ _ hkept => hkept.append _
  obtain ⟨resolver, metrics, hquery⟩ := master.exists_scopedQuery_snd env identity table
  have hcalls : calls' = calls ++ master.countCalls source env identity table := rfl
  unfold rowCountBy
  unfold countCalls at hcalls
  rcases hrun : master.scopedQuery env identity table with ⟨fault | query, master'⟩
  · rw [hrun] at hquery
    subst hquery
    exact ⟨hlogged, nofun⟩
  · rw [hrun] at hquery hcalls
    subst hquery
    have hasked (hmissed : master.rowCounts.peek (rowCountKey table query) env.now = none)
        (_ : Metrics) (rows : UInt64) (hrows : source table query = .ok rows) :
        IsLogged calls' (rowCountKey table query) rows := by
      refine ⟨table, query, rfl, ?_⟩
      simp only [hmissed] at hcalls
      rw [hcalls, ← hrows]
      exact List.mem_append_right _ List.mem_cons_self
    obtain ⟨hkept, hgiven⟩ := hlogged.getOrCompute_of_missed metrics (rowCountKey table query)
      env.now (fun m => (source table query, m)) hasked
    exact ⟨hkept, fun rows hrows => ⟨query, rfl, hgiven rows hrows⟩⟩

/-! ## Runs -/

/-- The masters that arise from setting one up, and what row sources were asked on the way. -/
inductive Arises : Master → List CountCall → Prop
  | created {config : Config} {rules : TableRules} {master : Master}
      (hmaster : create config rules = .ok master) : Arises master []
  | counted {master : Master} {calls : List CountCall} (hbefore : Arises master calls)
      (source : RowSource) (env : Surroundings) (identity : Identity) (table : String) :
      Arises (master.rowCountBy source env identity table).2
        (calls ++ master.countCalls source env identity table)
  | announced {master : Master} {calls : List CountCall} (hbefore : Arises master calls)
      (event : InvalidationEvent) : Arises (master.announce event).2 calls
  | purged {master : Master} {calls : List CountCall} (hbefore : Arises master calls) (now : Tick) :
      Arises (master.purge now).2 calls
  /-- Anything is done with the parts of the master that keep no counts. -/
  | aside {master : Master} {calls : List CountCall} (hbefore : Arises master calls)
      (resolver : ScopeResolver) (bridge : Bridge) (gate : Gate) (metrics : Metrics) :
      Arises { master with resolver, bridge, gate, metrics } calls

theorem slots_rowCounts_of_create {config : Config} {rules : TableRules}
    (h : create config rules = .ok master) : master.rowCounts.slots = ∅ := by
  simp only [create, bind_eq_ok_iff] at h
  obtain ⟨_, -, extra, -, h⟩ := h
  rw [← Except.ok.inj h]

namespace Arises

/-- Every count that is kept was asked for. -/
theorem holds (h : master.Arises calls) : master.rowCounts.Holds (IsLogged calls) := by
  induction h with
  | created hmaster =>
      exact AccessCache.holds_of_slots_eq_empty (slots_rowCounts_of_create hmaster) _
  | counted hbefore source env identity table ih =>
      exact (isLogged_rowCountBy ih source env identity table).1
  | @announced master calls hbefore event ih =>
      have hkeeps : master.Keeps { Kept.anything with rowCount := IsLogged calls } master :=
        { master.keeps_anything with rowCounts := ih }
      exact (hkeeps.announce event).rowCounts.mono fun _ _ hleft => hleft.2
  | purged hbefore now ih => exact ih.purge _ _
  | aside hbefore resolver bridge gate metrics ih => exact ih

/-! ### Runs with a store are such runs -/

theorem authorize (h : master.Arises calls) (env : Surroundings) (identity : Identity)
    (table : String) : (master.authorize env identity table).2.Arises calls := by
  obtain ⟨resolver, metrics, hsnd⟩ := master.exists_authorize_snd env identity table
  rw [hsnd]
  exact h.aside resolver master.bridge master.gate metrics

theorem scopedQuery (h : master.Arises calls) (env : Surroundings) (identity : Identity)
    (table : String) : (master.scopedQuery env identity table).2.Arises calls := by
  rw [scopedQuery_snd]
  exact h.authorize env identity table

/-- The row source may have been asked nothing more. -/
theorem exists_append (h : master.Arises calls) : ∃ more, master.Arises (calls ++ more) :=
  ⟨[], by rwa [List.append_nil]⟩

/-- What a session does with its identity starts from a master that keeps the same counts. -/
theorem withIdentity {α : Type} (h : master.Arises calls) (env : Surroundings)
    (session : Session) {next : Master → Identity → Except Fault α × Master}
    (hnext : ∀ master' identity, master'.Arises calls →
      ∃ more, (next master' identity).2.Arises (calls ++ more)) :
    ∃ more, (session.withIdentity env master next).2.Arises (calls ++ more) := by
  have hresolved : (session.identity env master).2.Arises calls :=
    h.aside _ master.bridge master.gate _
  unfold Session.withIdentity
  split
  · next hrun =>
    rw [hrun] at hresolved
    exact hresolved.exists_append
  · next identity master' hrun =>
    rw [hrun] at hresolved
    exact hnext master' identity hresolved

theorem sessionScopedQuery (h : master.Arises calls) (env : Surroundings) (session : Session)
    (table : String) :
    ∃ more, (session.scopedQuery env table master).2.Arises (calls ++ more) := by
  apply h.withIdentity env session
  intro master' identity h'
  exact (h'.scopedQuery env identity table).exists_append

/-- A request of a session asks its store. -/
theorem answer (h : master.Arises calls) (env : Surroundings) (session : Session)
    (request : SessionRequest) :
    ∃ more, (session.answer env request master).2.Arises (calls ++ more) := by
  cases request with
  | identity =>
      have hresolved : (session.identity env master).2.Arises calls :=
        h.aside _ master.bridge master.gate _
      exact hresolved.exists_append
  | authorize table =>
      change ∃ more, (session.authorize env table master).2.Arises (calls ++ more)
      apply h.withIdentity env session
      intro master' identity h'
      exact (h'.authorize env identity table).exists_append
  | scopedQuery table => exact h.sessionScopedQuery env session table
  | rowCount table =>
      change ∃ more, (session.rowCount env table master).2.Arises (calls ++ more)
      apply h.withIdentity env session
      intro master' identity h'
      rw [← rowCountBy_rowSource]
      exact ⟨_, h'.counted env.store.rowSource env identity table⟩
  | scopedQueryAt ordinal =>
      have hasked : (master.ask env (.requireTable session.version ordinal)).2.Arises calls :=
        h.aside master.resolver _ master.gate master.metrics
      change ∃ more, (session.scopedQueryAt env ordinal master).2.Arises (calls ++ more)
      unfold Session.scopedQueryAt
      rcases hask : master.ask env (.requireTable session.version ordinal) with
        ⟨fault | canonical, master₁⟩
      · rw [hask] at hasked
        exact hasked.exists_append
      rw [hask] at hasked
      have hnamed : (master₁.tableName env canonical).2.Arises calls :=
        hasked.aside master₁.resolver _ master₁.gate master₁.metrics
      simp only
      rcases hname : master₁.tableName env canonical with ⟨fault | _ | table, master₂⟩
      · rw [hname] at hnamed
        exact hnamed.exists_append
      · rw [hname] at hnamed
        exact hnamed.exists_append
      rw [hname] at hnamed
      obtain ⟨more, hqueried⟩ := hnamed.sessionScopedQuery env session table
      refine ⟨more, ?_⟩
      simp only
      rcases hrun : session.scopedQuery env table master₂ with ⟨fault | query, master₃⟩
      · rwa [hrun] at hqueried
      · rwa [hrun] at hqueried

theorem step {w : World} (h : w.master.Arises calls) (step : WorldStep) :
    ∃ more, (w.step step).master.Arises (calls ++ more) := by
  cases step with
  | change change => exact h.exists_append
  | setAvailable isAvailable => exact h.exists_append
  | announce event => exact (h.announced event).exists_append
  | moveClock move => exact h.exists_append
  | purge => exact (h.purged w.now).exists_append
  | ask session request => exact h.answer w.env session request
  | askAs identity request =>
      cases request with
      | authorize table => exact (h.authorize w.env identity table).exists_append
      | scopedQuery table => exact (h.scopedQuery w.env identity table).exists_append
      | rowCount table =>
          change ∃ more, (w.master.rowCount w.env identity table).2.Arises (calls ++ more)
          rw [← rowCountBy_rowSource]
          exact ⟨_, h.counted w.store.rowSource w.env identity table⟩

/-- Whatever happens to a master and its store is a run as it is described here. -/
theorem run {w : World} (h : w.master.Arises calls) (steps : List WorldStep) :
    ∃ more, (w.run steps).master.Arises (calls ++ more) := by
  induction steps generalizing w calls with
  | nil => exact h.exists_append
  | cons step steps ih =>
      obtain ⟨more, hstep⟩ := h.step step
      obtain ⟨later, hrun⟩ := ih hstep
      exact ⟨more ++ later, by rwa [List.append_assoc] at hrun⟩

end Arises

end Master

/-! ## Requests at the same time -/

namespace SharedCache

variable {w : SharedCache UInt64 Fault} {asked : Nat → String × QueryScope}
  {calls : List CountCall}

/-- Each call that gets a count does so for the table and the filter of a request of its own, and
what it computes is what a row source says of that table and that filter. -/
structure Counts (w : SharedCache UInt64 Fault) (asked : Nat → String × QueryScope)
    (calls : List CountCall) : Prop where
  key : ∀ n c key, w.calls n = some c → c.op = .get key →
    key = rowCountKey (asked n).1 (asked n).2
  answer : ∀ n c s rows, w.calls n = some c → c.stage = .served s n rows →
    ⟨(asked n).1, (asked n).2, .ok rows⟩ ∈ calls

/-- A count was computed for the table and the filter that its slot is for. -/
theorem Counts.isLogged_of_authored (h : w.Counts asked calls) {s author : Nat}
    {slot : SharedSlot UInt64} {rows : UInt64} (hslot : w.slots s = some slot)
    (hauthored : w.Authored s author rows) : IsLogged calls slot.key rows := by
  obtain ⟨c, slot', _, hcall, hslot', hop, hstage, -, -⟩ := hauthored
  obtain rfl := Option.some.inj (hslot.symm.trans hslot')
  exact ⟨_, _, h.key author c slot.key hcall hop, h.answer author c s rows hcall hstage⟩

theorem Counts.isLogged_of_inMap (h : w.Counts asked calls) (hsound : w.Sound) {key : CacheKey}
    {s : Nat} {slot : SharedSlot UInt64} {entry : CacheEntry UInt64}
    (hinMap : w.map[key]? = some s) (hslot : w.slots s = some slot)
    (hentry : slot.entry = some entry) : IsLogged calls key entry.value := by
  obtain ⟨slot', hslot', rfl, -⟩ := hsound.map key s hinMap
  obtain rfl := Option.some.inj (hslot.symm.trans hslot')
  exact h.isLogged_of_authored hslot ((hsound.slots s slot hslot).entry entry hentry)

theorem Counts.isLogged_of_served (h : w.Counts asked calls) (hsound : w.Sound) {n : Nat}
    {c : CacheCall UInt64 Fault} {key : CacheKey} {s author : Nat} {rows : UInt64}
    (hat : w.At n c (.get key) (.served s author rows)) : IsLogged calls key rows := by
  obtain ⟨-, ⟨slot, hslot, hkey, -⟩, hauthored⟩ := hat.sound hsound
  rw [hat.op] at hkey
  obtain rfl : key = slot.key := Option.some.inj hkey
  exact h.isLogged_of_authored hslot hauthored

end SharedCache

/-! ## Sharing -/

/-- A count was given for a table and for the one filter that has a text. -/
def GivenFor (calls : List CountCall) (table text : String) (rows : UInt64) : Prop :=
  ∃ query : QueryScope, text = Json.compactText query.toDatum
    ∧ (∀ other : QueryScope, text = Json.compactText other.toDatum → other = query)
    ∧ ⟨table, query, .ok rows⟩ ∈ calls

theorem IsLogged.givenFor {calls : List CountCall} {table text : String} {rows : UInt64}
    (h : IsLogged calls ⟨.rowCount table, text⟩ rows) : GivenFor calls table text rows := by
  obtain ⟨table', query, hkey, hcall⟩ := h
  injection hkey with hcls htext
  obtain rfl := ResourceClass.rowCount.inj hcls
  refine ⟨query, htext, fun other hother => ?_, hcall⟩
  exact (rowCountKey_inj (congrArg (CacheKey.mk (.rowCount table)) (hother.symm.trans htext))).2

/-- The texts that counts are kept under are equal exactly if the filters are. Whatever happened
to a master before, a count that it keeps under a table and a text was given by the row source for
that table and the one filter with that text, it keeps nothing else among its counts, and it gives
an identity only a count that was given for the table and the filter of the request. This covers
all that can happen to a master and a store, and it is no different where requests come at the
same time. -/
theorem rowCounts_shared_by_equal_filters :
    (∀ (table table' : String) (query query' : QueryScope),
      (rowCountKey table query).subject = (rowCountKey table' query').subject ↔ query = query')
    ∧ (∀ master calls, Master.Arises master calls →
      (∀ table text entry, master.rowCounts.find? ⟨.rowCount table, text⟩ = some entry →
        GivenFor calls table text entry.value)
      ∧ (∀ key entry, master.rowCounts.find? key = some entry →
        ∃ table query, key = rowCountKey table query)
      ∧ ∀ source env identity table rows,
        (master.rowCountBy source env identity table).1 = .ok rows →
          ∃ query, (master.scopedQuery env identity table).1 = .ok query
            ∧ ⟨table, query, .ok rows⟩ ∈
              calls ++ master.countCalls source env identity table)
    ∧ (∀ (w : World) calls, w.master.Arises calls → ∀ steps : List WorldStep,
      ∃ more, (w.run steps).master.Arises (calls ++ more))
    ∧ ∀ settings (w : SharedCache UInt64 Fault), w.Reaches settings →
      ∀ asked calls, w.Counts asked calls →
        (∀ table text s slot entry, w.map[(⟨.rowCount table, text⟩ : CacheKey)]? = some s →
          w.slots s = some slot → slot.entry = some entry →
            GivenFor calls table text entry.value)
        ∧ ∀ n c key s author rows, w.At n c (.get key) (.served s author rows) →
          ⟨(asked n).1, (asked n).2, .ok rows⟩ ∈ calls := by
  refine ⟨fun table table' query query' => ?_, fun master calls harises => ⟨?_, ?_, ?_⟩,
    fun w calls harises steps => harises.run steps,
    fun settings w hreaches asked calls hcounts => ⟨?_, ?_⟩⟩
  · constructor
    · intro hsubject
      exact (rowCountKey_inj (congrArg (CacheKey.mk (.rowCount table)) hsubject)).2
    · rintro rfl
      rfl
  · exact fun table text entry hentry => (harises.holds hentry).givenFor
  · intro key entry hentry
    obtain ⟨table, query, hkey, -⟩ := harises.holds hentry
    exact ⟨table, query, hkey⟩
  · intro source env identity table rows hrows
    obtain ⟨query, hquery, hlogged⟩ :=
      (Master.isLogged_rowCountBy harises.holds source env identity table).2 rows hrows
    exact ⟨query, hquery, mem_of_isLogged_rowCountKey hlogged⟩
  · intro table text s slot entry hinMap hslot hentry
    exact (hcounts.isLogged_of_inMap hreaches.sound hinMap hslot hentry).givenFor
  · intro n c key s author rows hat
    have hlogged := hcounts.isLogged_of_served hreaches.sound hat
    rw [hcounts.key n c key hat.call hat.op] at hlogged
    exact mem_of_isLogged_rowCountKey hlogged

/-- Backups lie on hosts. The name of the column has quotation marks, a backslash and what looks
like the rest of a filter in it. -/
def oddBackups : Store :=
  { backupStore with
    rules := {
      byTable := Std.ExtTreeMap.ofList
        [("backups", { backupRule with scoping := .hostTopology "id\",\"hosts\":[2]\\" })] } }

/-- What the unwritten configuration makes of the rules of a store. -/
theorem Master.create_default (store : Store) : create {} store.rules = .ok (unused store) := by
  have hvalid : Config.validate {} = .ok () := rfl
  have hextra : Config.extraDependencies {} = .ok [] := rfl
  -- Said of any rules: the unfolded built-in ones are long.
  have hnone (rules : InvalidationRules) : rules.addAll [] = rules := rfl
  rw [create, hvalid, hextra]
  simp only [bind, pure, Except.pure, Except.bind, inContext, Except.mapError, hnone]
  rw [unused]
  rfl

/-- Two operators of the first host share a count, which the row source gave once and would not
give again; an operator of the second host does not. -/
theorem rowCounts_shared_by_equal_filters_of_operators :
    let filter (host : HostId) : QueryScope := .hostIn "id\",\"hosts\":[2]\\" {host}
    let operator (name : String) (host : HostId) : Identity := .scopedOperator name {host} ∅
    let env : Surroundings := ⟨oddBackups, .zero⟩
    ∃ master calls, Master.Arises master calls ∧ calls = [⟨"backups", filter ⟨1⟩, .ok 5⟩]
      ∧ (master.rowCountBy (fun _ _ => .ok 9) env (operator "eve" ⟨1⟩) "backups").1 = .ok 5
      ∧ (master.rowCountBy (fun _ _ => .ok 9) env (operator "eve" ⟨2⟩) "backups").1 = .ok 9
      ∧ ⟨"backups", filter ⟨1⟩, .ok 5⟩ ∈ calls
      ∧ (rowCountKey "backups" (filter ⟨1⟩)).subject ≠
        (rowCountKey "backups" (filter ⟨2⟩)).subject := by
  intro filter operator env
  obtain ⟨hsubjects, hanswers, -⟩ := rowCounts_shared_by_equal_filters
  have hasked := (Master.Arises.created (Master.create_default oddBackups)).counted
    (fun _ _ => .ok 5) env (operator "ops" ⟨1⟩) "backups"
  have hcalls : [] ++ (Master.unused oddBackups).countCalls (fun _ _ => .ok 5) env
      (operator "ops" ⟨1⟩) "backups" = [⟨"backups", filter ⟨1⟩, .ok 5⟩] := by
    decide +kernel
  rw [hcalls] at hasked
  generalize hmaster : ((Master.unused oddBackups).rowCountBy (fun _ _ => .ok 5) env
    (operator "ops" ⟨1⟩) "backups").2 = master at hasked
  have hshared :
      (master.rowCountBy (fun _ _ => .ok 9) env (operator "eve" ⟨1⟩) "backups").1 = .ok 5 := by
    rw [← hmaster]
    decide +kernel
  have hapart :
      (master.rowCountBy (fun _ _ => .ok 9) env (operator "eve" ⟨2⟩) "backups").1 = .ok 9 := by
    rw [← hmaster]
    decide +kernel
  refine ⟨master, _, hasked, rfl, hshared, hapart, ?_, ?_⟩
  · obtain ⟨-, -, hgiven⟩ := hanswers _ _ hasked
    obtain ⟨query, hquery, hcall⟩ := hgiven _ env (operator "eve" ⟨1⟩) "backups" 5 hshared
    have hfilter : (master.scopedQuery env (operator "eve" ⟨1⟩) "backups").1 =
        .ok (filter ⟨1⟩) := by
      rw [← hmaster]
      decide +kernel
    have hquiet : master.countCalls (fun _ _ => .ok 9) env (operator "eve" ⟨1⟩) "backups" = [] := by
      rw [← hmaster]
      decide +kernel
    rw [hfilter] at hquery
    rwa [hquiet, List.append_nil, ← Except.ok.inj hquery] at hcall
  · rw [Ne, hsubjects]
    decide +kernel

end ControlPlane
