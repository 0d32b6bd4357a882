/-
# How old an answer can be

A master serves what it has derived for a lifetime. A session's identity is derived from the
directory, and a scope from the identity that a request presents and from the hosts as they stand
then. So the hosts of an identity that a session presents were assigned less than a lifetime ago,
and a scope was computed less than a lifetime ago.

A scope is kept under the username of the identity that it was computed from, not under its hosts.
A session is therefore told what follows from hosts that some request for the user has presented
less than a lifetime ago, whichever hosts its own identity has. Where these hosts had been looked
up almost a lifetime before they were presented, the answer is almost two lifetimes old.
-/

import ControlPlane.Proofs.Master.Assignment
import ControlPlane.Proofs.Master.Creation
import ControlPlane.Proofs.Master.Keys
import ControlPlane.Proofs.Master.Resolving
import Mathlib.Data.List.Induction
import Mathlib.Data.List.Infix

namespace ControlPlane

open Std (ExtTreeSet)

/-! ## Points of a run -/

namespace World

/-- A point of a run from which less than some time has passed by the clock. -/
structure IsRecent (start : World) (lifetime : Nat) (steps point : List WorldStep) : Prop where
  earlier : point <+: steps
  lt : (start.run steps).now.ms.toNat < (start.run point).now.ms.toNat + lifetime

/-- Hosts that were assigned to a user less than some time ago. -/
def AssignedWithin (start : World) (lifetime : Nat) (steps : List WorldStep) (username : String)
    (hosts : ExtTreeSet HostId) : Prop :=
  ∃ point permissions, start.IsRecent lifetime steps point
    ∧ (start.run point).store.snapshot.users[username]? = some (.scopedOperator hosts permissions)

/-- The hosts that are visible through an assignment of less than some time ago, over a topology
of less than some time ago. -/
def VisibleWithin (start : World) (assignment topology : Nat) (steps : List WorldStep)
    (username : String) (options : ScopeOptions) (visible : ExtTreeSet HostId) : Prop :=
  ∃ hosts point, start.AssignedWithin assignment steps username hosts
    ∧ start.IsRecent topology steps point
    ∧ visible = (start.run point).store.snapshot.topology.expand hosts options

/-- At a point of a run, a request presents an identity of a user with some hosts. -/
inductive Presents (start : World) (steps : List WorldStep) (username : String) :
    List WorldStep → ExtTreeSet HostId → Prop
  /-- Somebody has the identity from somewhere. -/
  | passed {before after : List WorldStep} {hosts : ExtTreeSet HostId}
      {permissions : ExtTreeSet String} {request : DirectRequest}
      (hsteps : steps =
        before ++ .askAs (.scopedOperator username hosts permissions) request :: after) :
      Presents start steps username before hosts
  /-- A session looks it up. -/
  | lookedUp {before after : List WorldStep} {hosts : ExtTreeSet HostId}
      {permissions : ExtTreeSet String} {session : Session} {request : SessionRequest}
      (hsteps : steps = before ++ .ask session request :: after)
      (hidentity : (session.identity (start.run before).env (start.run before).master).1 =
        .ok (.scopedOperator username hosts permissions)) :
      Presents start steps username before hosts

variable {start : World} {lifetime lifetime' : Nat} {steps point point' : List WorldStep}
  {username : String} {hosts : ExtTreeSet HostId}

theorem IsRecent.trans (h : start.IsRecent lifetime steps point)
    (h' : start.IsRecent lifetime' point point') :
    start.IsRecent (lifetime + lifetime') steps point' where
  earlier := h'.earlier.trans h.earlier
  lt := by
    have hlater := h.lt
    have hearlier := h'.lt
    omega

theorem AssignedWithin.later (h : start.AssignedWithin lifetime' point username hosts)
    (hpoint : start.IsRecent lifetime steps point) :
    start.AssignedWithin (lifetime + lifetime') steps username hosts := by
  obtain ⟨point', permissions, hpoint', hassigned⟩ := h
  exact ⟨point', permissions, hpoint.trans hpoint', hassigned⟩

theorem Presents.append (h : start.Presents steps username point hosts) (more : List WorldStep) :
    start.Presents (steps ++ more) username point hosts := by
  cases h with
  | passed hsteps => exact .passed (by rw [hsteps, List.append_assoc, List.cons_append])
  | lookedUp hsteps hidentity =>
      exact .lookedUp (by rw [hsteps, List.append_assoc, List.cons_append]) hidentity

/-- A step of a run with one step more is that one or an earlier one. -/
private theorem eq_or_earlier {step last : WorldStep} {before after : List WorldStep}
    (h : steps ++ [last] = before ++ step :: after) :
    (before = steps ∧ step = last) ∨ ∃ after', steps = before ++ step :: after' := by
  rcases List.eq_nil_or_concat after with rfl | ⟨after', final, rfl⟩
  · obtain ⟨rfl, hlast⟩ := List.append_inj' h rfl
    exact .inl ⟨rfl, (List.singleton_inj.mp hlast).symm⟩
  · rw [List.concat_eq_append, ← List.cons_append, ← List.append_assoc] at h
    exact .inr ⟨after', (List.append_inj' h rfl).1⟩

/-- A request of a session presents the identity of the session. -/
theorem Presents.of_concat {session : Session} {request : SessionRequest}
    (h : start.Presents (steps ++ [.ask session request]) username point hosts) :
    start.Presents steps username point hosts
    ∨ point = steps ∧ ∃ permissions,
        (session.identity (start.run steps).env (start.run steps).master).1 =
          .ok (.scopedOperator username hosts permissions) := by
  cases h with
  | passed hsteps =>
      rcases eq_or_earlier hsteps with ⟨-, hstep⟩ | ⟨after', hsteps'⟩
      · cases hstep
      · exact .inl (.passed hsteps')
  | lookedUp hsteps hidentity =>
      rcases eq_or_earlier hsteps with ⟨rfl, hstep⟩ | ⟨after', hsteps'⟩
      · obtain ⟨rfl, -⟩ := WorldStep.ask.inj hstep
        exact .inr ⟨rfl, _, hidentity⟩
      · exact .inl (.lookedUp hsteps' hidentity)

theorem Presents.isPrefix (h : start.Presents steps username point hosts) : point <+: steps := by
  cases h with
  | passed hsteps => exact ⟨_, hsteps.symm⟩
  | lookedUp hsteps hidentity => exact ⟨_, hsteps.symm⟩

end World

/-! ## What a store gives a scoped operator -/

namespace Store

theorem assigned_of_resolveIdentity {store : Store} {name username : String}
    {hosts : ExtTreeSet HostId} {permissions : ExtTreeSet String}
    (h : store.resolveIdentity name = .ok (.scopedOperator username hosts permissions)) :
    username = name ∧ store.snapshot.users[name]? = some (.scopedOperator hosts permissions) :=
  ((store.resolveIdentity_online_eq_ok_iff name _).mp (resolveIdentity_online h)).1

theorem eq_of_computeScope {store : Store} {username : String} {hosts : ExtTreeSet HostId}
    {permissions : ExtTreeSet String} {options : ScopeOptions} {scope : AccessScope}
    (h : store.computeScope (.scopedOperator username hosts permissions) options = .ok scope) :
    scope = .hosts (store.snapshot.topology.expand hosts options) := by
  have honline := store.computeScope_online_scopedOperator username hosts permissions options
  rw [computeScope_online h] at honline
  exact Except.ok.inj honline

end Store

/-! ## When entries were stored -/

/-- What can be served, or was stored just now, was stored less than a lifetime ago. -/
theorem CacheEntry.lt_of_isLive_or_eq {α : Type} {value : α} {storedAt now : Tick}
    {ttl maxAge : Duration} (hpositive : 0 < ttl.millis.toNat)
    (h : (store value storedAt ttl).isLive now maxAge = true ∨ storedAt = now) :
    now.ms.toNat < storedAt.ms.toNat + ttl.millis.toNat := by
  rcases h with hlive | rfl
  · exact lt_of_isLive_store hlive
  · exact Nat.lt_add_of_pos_right hpositive

/-- What a resolver keeps at the end of a run was stored at points of the run: an identity as the
store gave it, and a scope of a user as it followed from the hosts of a request. -/
structure ScopeResolver.Dated (r : ScopeResolver) (start : World) (ttl : Duration)
    (steps : List WorldStep) (username : String) : Prop where
  identities_ttl : r.identities.settings.ttl = ttl
  scopes_ttl : r.scopes.settings.ttl = ttl
  identity {name : String} {entry : CacheEntry Identity}
    (h : r.identities.find? ⟨.identity, name⟩ = some entry) :
    ∃ point identity, point <+: steps
      ∧ entry = .store identity (start.run point).now ttl
      ∧ (start.run point).store.resolveIdentity name = .ok identity
  scope {options : ScopeOptions} {key : CacheKey} {hosts : ExtTreeSet HostId}
    {permissions : ExtTreeSet String} {entry : CacheEntry AccessScope}
    (hkey : (Identity.scopedOperator username hosts permissions).scopeKey? options = some key)
    (h : r.scopes.find? key = some entry) :
    ∃ point hosts, point <+: steps ∧ start.Presents steps username point hosts
      ∧ entry = .store (.hosts ((start.run point).store.snapshot.topology.expand hosts options))
        (start.run point).now ttl

namespace ScopeResolver.Dated

variable {r r' : ScopeResolver} {start : World} {ttl : Duration} {steps point : List WorldStep}
  {username name : String} {identity : Identity} {options : ScopeOptions} {m : Metrics}

theorem append (h : r.Dated start ttl steps username) (more : List WorldStep) :
    r.Dated start ttl (steps ++ more) username where
  identities_ttl := h.identities_ttl
  scopes_ttl := h.scopes_ttl
  identity hentry := by
    obtain ⟨point, identity, hpoint, hstored⟩ := h.identity hentry
    exact ⟨point, identity, hpoint.trans (List.prefix_append steps more), hstored⟩
  scope hkey hentry := by
    obtain ⟨point, hosts, hpoint, hpresents, hstored⟩ := h.scope hkey hentry
    exact ⟨point, hosts, hpoint.trans (List.prefix_append steps more), hpresents.append more,
      hstored⟩

theorem of_loses (h : r.Dated start ttl steps username) (hloses : r.Loses r') :
    r'.Dated start ttl steps username where
  identities_ttl := by rw [hloses.identities_settings, h.identities_ttl]
  scopes_ttl := by rw [hloses.scopes_settings, h.scopes_ttl]
  identity hentry := h.identity (hloses.identities hentry)
  scope hkey hentry := h.scope hkey (hloses.scopes hentry)

/-- Looking an identity up stores what the store gives then. -/
theorem lookup (h : r.Dated start ttl steps username) (hpoint : point <+: steps) (m : Metrics)
    (name : String) :
    (r.identity m (start.run point).env name).2.1.Dated start ttl steps username := by
  rw [identity_eq]
  refine { h with identities_ttl := ?_, identity := fun {other entry} hentry => ?_ }
  · rw [AccessCache.settings_getOrCompute, h.identities_ttl]
  · rcases AccessCache.find?_getOrCompute hentry with hkept | ⟨hkey, _, identity, hresult, rfl⟩
    · exact h.identity hkept
    · obtain rfl := (CacheKey.mk.inj hkey).2
      rw [h.identities_ttl]
      exact ⟨point, identity, hpoint, rfl, hresult⟩

/-- Asking for the scope of an identity stores what follows from its hosts then. -/
theorem accessScope (h : r.Dated start ttl steps username) (hpoint : point <+: steps)
    (hpresents : ∀ hosts permissions, identity = .scopedOperator username hosts permissions →
      start.Presents steps username point hosts) (m : Metrics) (options : ScopeOptions) :
    (r.accessScope m (start.run point).env identity options).2.1.Dated start ttl steps
      username := by
  cases hkey : identity.scopeKey? options with
  | none =>
      rw [ScopeResolver.accessScope, hkey]
      exact h
  | some key =>
      rw [accessScope_eq _ _ _ hkey]
      refine { h with
        scopes_ttl := ?_
        scope := fun {options' key' hosts permissions entry} hkey' hentry => ?_ }
      · rw [AccessCache.settings_getOrCompute, h.scopes_ttl]
      · rcases AccessCache.find?_getOrCompute hentry with hkept | ⟨rfl, _, scope, hresult, rfl⟩
        · exact h.scope hkey' hkept
        · -- The key tells the username and the options, so the user's hosts are presented.
          rcases eq_of_scopeKey?_eq hkey hkey' with
            ⟨_, _, _, -, htenant⟩ | ⟨_, presented, permissions, _, _, rfl, huser, rfl⟩
          · cases htenant
          · obtain ⟨rfl, -, -⟩ := Identity.scopedOperator.inj huser
            have hscope : (start.run point).store.computeScope
                (.scopedOperator username presented permissions) options = .ok scope := hresult
            obtain rfl := Store.eq_of_computeScope hscope
            rw [h.scopes_ttl]
            exact ⟨point, presented, hpoint, hpresents presented _ rfl, rfl⟩

theorem afterScope (h : r.Dated start ttl steps username) (hpoint : point <+: steps)
    (hpresents : ∀ hosts permissions, identity = .scopedOperator username hosts permissions →
      start.Presents steps username point hosts)
    (hafter : r.AfterScope m (start.run point).env identity r') :
    r'.Dated start ttl steps username := by
  cases hafter with
  | unasked => exact h
  | asked options => exact h.accessScope hpoint hpresents m options

theorem afterRequest (h : r.Dated start ttl steps username) (hpoint : point <+: steps)
    (hpresents : ∀ {hosts : ExtTreeSet HostId} {permissions : ExtTreeSet String},
      (r.identity m (start.run point).env name).1 =
        .ok (.scopedOperator username hosts permissions) →
      start.Presents steps username point hosts)
    (hafter : r.AfterRequest m (start.run point).env name r') :
    r'.Dated start ttl steps username := by
  cases hafter with
  | unasked => exact h
  | refused => exact h.lookup hpoint m name
  | resolved hidentity hscope =>
      refine (h.lookup hpoint m name).afterScope hpoint ?_ hscope
      rintro hosts permissions rfl
      exact hpresents hidentity

/-- What a resolver keeps after one more step of a run. -/
theorem step (h : (start.run steps).master.resolver.Dated start ttl steps username)
    (step : WorldStep) :
    (start.run (steps ++ [step])).master.resolver.Dated start ttl (steps ++ [step]) username := by
  have hpoint : steps <+: steps ++ [step] := List.prefix_append steps [step]
  have hbefore := h.append [step]
  rw [World.run_concat]
  cases step with
  | change change => exact hbefore
  | setAvailable isAvailable => exact hbefore
  | announce event => exact hbefore.of_loses (Master.loses_announce event)
  | moveClock move => exact hbefore
  | purge => exact hbefore.of_loses (Master.loses_purge _)
  | ask session request =>
      have hafter : (start.run steps).master.resolver.AfterRequest (start.run steps).master.metrics
          (start.run steps).env session.username _ :=
        Master.afterRequest_answer session request
      exact hbefore.afterRequest hpoint
        (fun hidentity => .lookedUp rfl hidentity) hafter
  | askAs identity request =>
      have hpresents (hosts : ExtTreeSet HostId) (permissions : ExtTreeSet String)
          (hidentity : identity = .scopedOperator username hosts permissions) :
          start.Presents (steps ++ [.askAs identity request]) username steps hosts :=
        .passed (by rw [hidentity])
      cases request with
      | authorize table =>
          exact hbefore.afterScope hpoint hpresents (Master.afterScope_authorize ..)
      | scopedQuery table =>
          exact hbefore.afterScope hpoint hpresents (Master.afterScope_scopedQuery ..)
      | rowCount table =>
          exact hbefore.afterScope hpoint hpresents (Master.afterScope_rowCount ..)

/-- An identity that is given is what the store gave less than a lifetime ago. -/
theorem identity_recent (h : r.Dated start ttl steps username) (hpositive : 0 < ttl.millis.toNat)
    (hidentity : (r.identity m (start.run steps).env name).1 = .ok identity) :
    ∃ point, start.IsRecent ttl.millis.toNat steps point
      ∧ (start.run point).store.resolveIdentity name = .ok identity := by
  have hafter := h.lookup (List.prefix_refl steps) m name
  rw [identity_eq] at hidentity hafter
  obtain ⟨entry, hentry, hvalue, htime⟩ := AccessCache.exists_entry_of_getOrCompute hidentity
  obtain ⟨point, identity', hpoint, rfl, hresult⟩ := hafter.identity hentry
  obtain rfl : identity' = identity := hvalue
  exact ⟨point, ⟨hpoint, CacheEntry.lt_of_isLive_or_eq hpositive htime⟩, hresult⟩

/-- A scope that is given follows from hosts that were presented less than a lifetime ago. -/
theorem scope_recent (h : r.Dated start ttl steps username) (hpositive : 0 < ttl.millis.toNat)
    (hpoint : point <+: steps) (hnow : (start.run point).now = (start.run steps).now)
    {hosts visible : ExtTreeSet HostId} {permissions : ExtTreeSet String}
    (hpresents : start.Presents steps username point hosts)
    (hscope : (r.accessScope m (start.run point).env
      (.scopedOperator username hosts permissions) options).1 = .ok (.hosts visible)) :
    ∃ point' presented, start.IsRecent ttl.millis.toNat steps point'
      ∧ start.Presents steps username point' presented
      ∧ visible = (start.run point').store.snapshot.topology.expand presented options := by
  have hafter : (r.accessScope m (start.run point).env
      (.scopedOperator username hosts permissions) options).2.1.Dated start ttl steps username :=
    h.accessScope hpoint (by rintro _ _ ⟨⟩; exact hpresents) m options
  obtain ⟨key, hkey⟩ : ∃ key,
      (Identity.scopedOperator username hosts permissions).scopeKey? options = some key :=
    ⟨_, rfl⟩
  rw [accessScope_eq _ _ _ hkey] at hscope hafter
  obtain ⟨entry, hentry, hvalue, htime⟩ := AccessCache.exists_entry_of_getOrCompute hscope
  obtain ⟨point', presented, hpoint', hpresents', rfl⟩ := hafter.scope hkey hentry
  refine ⟨point', presented, ⟨hpoint', ?_⟩, hpresents', (AccessScope.hosts.inj hvalue).symm⟩
  rw [← hnow]
  exact CacheEntry.lt_of_isLive_or_eq hpositive htime

end ScopeResolver.Dated

/-- What a new master serves lives as long as its configuration says. -/
theorem Master.settings_of_create {config : Config} {rules : TableRules} {master : Master}
    (h : Master.create config rules = .ok master) :
    master.resolver.identities.settings = ⟨config.cache.ttl, config.cache.maxAge⟩
      ∧ master.resolver.scopes.settings = ⟨config.cache.ttl, config.cache.maxAge⟩ := by
  unfold create at h
  cases hcontext :
      inContext "invalid configuration" (config.validate.mapError ConfigError.report) with
  | error report => rw [hcontext] at h; cases h
  | ok accepted =>
      cases hextra : config.extraDependencies with
      | error report => rw [hcontext, hextra] at h; cases h
      | ok extra =>
          rw [hcontext, hextra] at h
          obtain rfl := Except.ok.inj h
          exact ⟨rfl, rfl⟩

/-- A scope of hosts is a scope that was asked for. -/
theorem Master.accessScope_of_authorize {master : Master} {env : Surroundings}
    {identity : Identity} {table : String} {visible : ExtTreeSet HostId}
    (h : (master.authorize env identity table).1 = .ok (.hosts visible)) :
    ∃ rule, master.rules.get? table = some rule
      ∧ (master.resolver.accessScope master.metrics env identity rule.scopeOptions).1 =
        .ok (.hosts visible) := by
  unfold authorize at h
  split at h
  · cases h
  · next rule hadmitted =>
    split at h
    · exact ⟨rule, (admittedRule_eq_ok_iff.mp hadmitted).1, h⟩
    · cases h

/-! ## The age of what a session is told -/

namespace World

/-- What can be said of the age of a scope that a session is told. -/
structure TellsRecent (start : World) (lifetime : Nat) (steps : List WorldStep)
    (session : Session) (request : SessionRequest) (options : ScopeOptions)
    (visible : ExtTreeSet HostId) : Prop where
  /-- It follows from hosts that were presented less than a lifetime ago. -/
  presented : ∃ point hosts, start.IsRecent lifetime steps point
    ∧ start.Presents (steps ++ [.ask session request]) session.username point hosts
    ∧ visible = (start.run point).store.snapshot.topology.expand hosts options
  /-- It is less than a lifetime old if such hosts were assigned less than a lifetime ago. -/
  withinLifetime :
    (∀ point hosts, start.IsRecent lifetime steps point →
      start.Presents steps session.username point hosts →
      start.AssignedWithin lifetime steps session.username hosts) →
    start.VisibleWithin lifetime lifetime steps session.username options visible
  /-- Where identities of the user are always looked up, it is less than two lifetimes old. -/
  withinTwo :
    (∀ hosts permissions request,
      .askAs (.scopedOperator session.username hosts permissions) request ∉ steps) →
    start.VisibleWithin (lifetime + lifetime) lifetime steps session.username options visible

section

variable {start : World} {config : Config} {rules : TableRules} {steps : List WorldStep}
  {session : Session} {username : String} {hosts visible : ExtTreeSet HostId}
  {permissions : ExtTreeSet String}

/-- Along every run of a new master, what its resolver keeps was stored at points of the run. -/
theorem dated_run (hcreate : Master.create config rules = .ok start.master)
    (hcold : start.master.IsCold) (steps : List WorldStep) (username : String) :
    (start.run steps).master.resolver.Dated start config.cache.ttl steps username := by
  induction steps using List.reverseRecOn with
  | nil =>
      obtain ⟨hidentities, hscopes⟩ := Master.settings_of_create hcreate
      obtain ⟨hnoIdentity, hnoScope, -⟩ := hcold
      exact {
        identities_ttl := by rw [run_nil, hidentities]
        scopes_ttl := by rw [run_nil, hscopes]
        identity := fun h => by simp [AccessCache.find?, hnoIdentity] at h
        scope := fun _ h => by simp [AccessCache.find?, hnoScope] at h }
  | append_singleton steps step ih => exact ih.step step

variable (hvalid : config.validate = .ok ())
  (hcreate : Master.create config rules = .ok start.master) (hcold : start.master.IsCold)

include hvalid hcreate hcold

/-- The identity of a scoped operator that a session is given lists hosts that were assigned less
than a lifetime ago. -/
theorem assignedWithin_of_identity
    (hidentity : (session.identity (start.run steps).env (start.run steps).master).1 =
      .ok (.scopedOperator username hosts permissions)) :
    username = session.username
      ∧ start.AssignedWithin config.cache.ttl.millis.toNat steps session.username hosts := by
  obtain ⟨point, hpoint, hresolved⟩ :=
    (dated_run hcreate hcold steps username).identity_recent
      (Config.serve_of_validate hvalid).1 hidentity
  obtain ⟨hname, hassigned⟩ := Store.assigned_of_resolveIdentity hresolved
  exact ⟨hname, point, permissions, hpoint, hassigned⟩

/-- Hosts that are presented without having been passed in were assigned less than a lifetime
before. -/
theorem assignedWithin_of_presents {point : List WorldStep}
    (h : start.Presents steps username point hosts)
    (hlookedUp : ∀ hosts permissions request,
      .askAs (.scopedOperator username hosts permissions) request ∉ steps) :
    start.AssignedWithin config.cache.ttl.millis.toNat point username hosts := by
  cases h with
  | @passed _ _ permissions request hsteps =>
      exact absurd (by simp [hsteps]) (hlookedUp hosts permissions request)
  | lookedUp hsteps hidentity =>
      obtain ⟨rfl, hassigned⟩ := assignedWithin_of_identity hvalid hcreate hcold hidentity
      exact hassigned

/-- The scope that a session of a scoped operator is told follows from hosts that were presented
less than a lifetime ago. -/
theorem presented_of_authorize {table : String}
    (hidentity : (session.identity (start.run steps).env (start.run steps).master).1 =
      .ok (.scopedOperator session.username hosts permissions))
    (htold : (session.authorize (start.run steps).env table (start.run steps).master).1 =
      .ok (.hosts visible)) :
    ∃ rule, start.master.rules.get? table = some rule
      ∧ ∃ point presented, start.IsRecent config.cache.ttl.millis.toNat steps point
        ∧ start.Presents (steps ++ [.ask session (.authorize table)]) session.username point
          presented
        ∧ visible =
          (start.run point).store.snapshot.topology.expand presented rule.scopeOptions := by
  let last : WorldStep := .ask session (.authorize table)
  have hlast : steps <+: steps ++ [last] := List.prefix_append steps [last]
  rw [Session.authorize, Session.withIdentity_of_identity hidentity] at htold
  obtain ⟨rule, hrule, hscope⟩ := Master.accessScope_of_authorize htold
  refine ⟨rule, (start.masterRules_run steps) ▸ hrule, ?_⟩
  -- The session's own hosts are among those that are presented.
  have hdated := ((dated_run hcreate hcold steps session.username).append [last]).lookup hlast
    (start.run steps).master.metrics session.username
  have hpresents : start.Presents (steps ++ [last]) session.username steps hosts :=
    .lookedUp rfl hidentity
  have hclock : (start.run (steps ++ [last])).now = (start.run steps).now := by
    rw [run_concat]
    rfl
  obtain ⟨point, presented, hpoint, hpresents', hvisible⟩ :=
    hdated.scope_recent (Config.serve_of_validate hvalid).1 hlast hclock.symm hpresents hscope
  refine ⟨point, presented, ⟨?_, hclock ▸ hpoint.lt⟩, hpresents', hvisible⟩
  rcases hpresents'.of_concat with hearlier | ⟨rfl, -⟩
  · exact hearlier.isPrefix
  · exact List.prefix_refl _

theorem tellsRecent_of_authorize {table : String}
    (hidentity : (session.identity (start.run steps).env (start.run steps).master).1 =
      .ok (.scopedOperator session.username hosts permissions))
    (htold : (session.authorize (start.run steps).env table (start.run steps).master).1 =
      .ok (.hosts visible)) :
    ∃ rule, start.master.rules.get? table = some rule
      ∧ start.TellsRecent config.cache.ttl.millis.toNat steps session (.authorize table)
        rule.scopeOptions visible := by
  obtain ⟨rule, hrule, point, presented, hpoint, hpresents, hvisible⟩ :=
    presented_of_authorize hvalid hcreate hcold hidentity htold
  refine ⟨rule, hrule, {
    presented := ⟨point, presented, hpoint, hpresents, hvisible⟩
    withinLifetime := fun hrecent => ⟨presented, point, ?_, hpoint, hvisible⟩
    withinTwo := fun hlookedUp => ⟨presented, point, ?_, hpoint, hvisible⟩ }⟩
  · rcases hpresents.of_concat with hearlier | ⟨rfl, permissions, hown⟩
    · exact hrecent point presented hpoint hearlier
    · exact (assignedWithin_of_identity hvalid hcreate hcold hown).2
  · -- One lifetime until they were presented, and one since.
    refine (assignedWithin_of_presents hvalid hcreate hcold hpresents ?_).later hpoint
    intro hosts permissions request hmem
    rcases List.mem_append.mp hmem with hearlier | hlast
    · exact hlookedUp hosts permissions request hearlier
    · cases List.mem_singleton.mp hlast

end

end World

/-- Set up a master with any accepted configuration and let anything happen. The hosts of a scoped
operator's session were assigned less than a lifetime ago. The scope that the session is told
follows, over the topology of less than a lifetime ago, from hosts that were presented then: it is
less than a lifetime old if they had been assigned less than a lifetime ago, and less than two if
they had been looked up. -/
theorem scope_recent_of_presented {config : Config} (hvalid : config.validate = .ok ())
    (store : Store) (now : Tick) :
    ∃ master, Master.create config store.rules = .ok master
      ∧ let start : World := ⟨store, now, master⟩
        let lifetime := config.cache.ttl.millis.toNat
        ∀ (steps : List WorldStep) (session : Session) (username : String)
          (hosts : ExtTreeSet HostId) (permissions : ExtTreeSet String),
          let w := start.run steps
          (session.identity w.env w.master).1 = .ok (.scopedOperator username hosts permissions) →
          start.AssignedWithin lifetime steps session.username hosts
          ∧ ∀ (table : String) (visible : ExtTreeSet HostId),
            (session.authorize w.env table w.master).1 = .ok (.hosts visible) →
            ∃ rule, store.rules.get? table = some rule
              ∧ start.TellsRecent lifetime steps session (.authorize table) rule.scopeOptions
                visible := by
  obtain ⟨master, hcreate, hnew⟩ := Master.exists_create_of_validate hvalid store.rules
  refine ⟨master, hcreate, ?_⟩
  intro start lifetime steps session username hosts permissions w hidentity
  have hcreate : Master.create config store.rules = .ok start.master := hcreate
  obtain ⟨rfl, hassigned⟩ :=
    World.assignedWithin_of_identity hvalid hcreate hnew.isCold hidentity
  refine ⟨hassigned, ?_⟩
  intro table visible htold
  rw [← hnew.rules_eq]
  exact World.tellsRecent_of_authorize hvalid hcreate hnew.isCold hidentity htold

/-! ## Two runs -/

/-- What is kept lives for a second. -/
def oneSecond : Config where
  cache := { ttlSeconds := 1 }

/-- The operator's session is told of the old host up to a second after it was looked up. -/
theorem scope_recent_of_reassignment :
    oneSecond.validate = .ok ()
      ∧ ∃ master, Master.create oneSecond backupStore.rules = .ok master
        ∧ let start : World := ⟨backupStore, .zero, master⟩
          let steps : List WorldStep := [.ask opsSession (.authorize "backups"),
            .change reassignment, .moveClock (·.add (.ofMillis 999))]
          let w := start.run steps
          let lifetime := oneSecond.cache.ttl.millis.toNat
          (opsSession.authorize w.env "backups" w.master).1 = .ok (.hosts {⟨1⟩})
            ∧ start.VisibleWithin lifetime lifetime steps "ops" backupRule.scopeOptions
              {⟨1⟩} := by
  have hvalid : oneSecond.validate = .ok () := rfl
  refine ⟨hvalid, ?_⟩
  obtain ⟨master, hcreate, hrecent⟩ := scope_recent_of_presented hvalid backupStore .zero
  refine ⟨master, hcreate, ?_⟩
  obtain rfl := Except.ok.inj hcreate
  intro start steps w lifetime
  have hidentity : (opsSession.identity w.env w.master).1 =
      .ok (.scopedOperator "ops" {⟨1⟩} ∅) := by decide +kernel
  have htold : (opsSession.authorize w.env "backups" w.master).1 = .ok (.hosts {⟨1⟩}) := by
    decide +kernel
  obtain ⟨rule, hrule, hscope⟩ := (hrecent steps opsSession _ _ _ hidentity).2 "backups" _ htold
  obtain rfl : backupRule = rule := Option.some.inj hrule
  refine ⟨htold, hscope.withinLifetime ?_⟩
  intro point hosts _ hpresents
  -- Before the operator was assigned another host, the session asked once.
  have hfirst : (opsSession.identity start.env start.master).1 =
      .ok (.scopedOperator "ops" {⟨1⟩} ∅) := by decide +kernel
  cases hpresents with
  | @passed _ _ permissions request hsteps =>
      have hmem : .askAs (.scopedOperator "ops" hosts permissions) request ∈ steps := by
        simp [hsteps, opsSession]
      simp [steps] at hmem
  | @lookedUp _ _ _ session request hsteps hlooked =>
      rcases List.append_eq_cons_iff.mp hsteps.symm with ⟨rfl, hask⟩ | ⟨between, -, hlater⟩
      · obtain ⟨rfl, -⟩ := WorldStep.ask.inj (List.cons.inj hask).1
        have hsame := hfirst.symm.trans hlooked
        obtain ⟨-, rfl, -⟩ := Identity.scopedOperator.inj (Except.ok.inj hsame)
        exact ⟨[], ∅, ⟨List.nil_prefix, by decide +kernel⟩, by decide +kernel⟩
      · have hmem : WorldStep.ask session request ∈ steps.tail := by simp [steps, hlater]
        simp [steps] at hmem

/-- The operator's session is told of the old host a second and a half after the operator was
assigned another one, because the old host was presented again before it was forgotten. -/
theorem outdated_scope_served :
    ∃ master, Master.create oneSecond backupStore.rules = .ok master
      ∧ let start : World := ⟨backupStore, .zero, master⟩
        let steps : List WorldStep := [.ask opsSession .identity, .change reassignment,
          .moveClock (·.add (.ofMillis 999)), .ask opsSession (.authorize "backups"),
          .moveClock (·.add (.ofMillis 501))]
        let w := start.run steps
        let lifetime := oneSecond.cache.ttl.millis.toNat
        (opsSession.authorize w.env "backups" w.master).1 = .ok (.hosts {⟨1⟩})
          ∧ ¬ start.VisibleWithin lifetime lifetime steps "ops" backupRule.scopeOptions
            {⟨1⟩} := by
  refine ⟨_, rfl, ?_⟩
  intro start steps w lifetime
  refine ⟨by decide +kernel, ?_⟩
  have hreassigned : ∀ point ∈ steps.inits,
      (start.run steps).now.ms.toNat < (start.run point).now.ms.toNat + lifetime →
      (start.run point).store.snapshot.users["ops"]? = some (.scopedOperator {⟨2⟩} ∅)
        ∧ (start.run point).store.snapshot.topology.expand {⟨2⟩} backupRule.scopeOptions =
          {⟨2⟩} := by decide +kernel
  have hlater {point : List WorldStep} (h : start.IsRecent lifetime steps point) :=
    hreassigned point ((List.mem_inits _ _).mpr h.earlier) h.lt
  rintro ⟨hosts, point, ⟨point', permissions, hpoint', hassigned⟩, hpoint, hvisible⟩
  obtain ⟨rfl, -⟩ := UserRole.scopedOperator.inj
    (Option.some.inj (hassigned.symm.trans (hlater hpoint').1))
  rw [(hlater hpoint).2] at hvisible
  exact absurd hvisible (by decide +kernel)

end ControlPlane
