/-
# What a master does to its resolver

A master's resolver keeps the identities and the scopes. Whatever happens to a master, its
resolver is afterwards one of a few things: it has looked an identity up, it has then computed
or served a scope, or it has only lost entries. Each operation is read here once; a property of
what a resolver keeps is then carried through all of them by three facts about resolvers.
-/

import ControlPlane.Proofs.Master.Keeping

namespace ControlPlane

namespace ScopeResolver

variable (r : ScopeResolver) (m : Metrics) (env : Surroundings)

/-- An identity request is a get of the identities' cache. -/
theorem identity_eq (username : String) :
    r.identity m env username =
      let got := r.identities.getOrCompute m ⟨.identity, username⟩ env.now
        fun m => (env.store.resolveIdentity username, m)
      (got.1, { r with identities := got.2.1 }, got.2.2) := rfl

/-- A scope request is a get of the scopes' cache. -/
theorem accessScope_eq {identity : Identity} {options : ScopeOptions} {key : CacheKey}
    (hkey : identity.scopeKey? options = some key) :
    r.accessScope m env identity options =
      let got := r.scopes.getOrCompute m key env.now (r.computeScope env.store identity options)
      (got.1, { r with scopes := got.2.1 }, got.2.2) := by
  rw [accessScope, hkey]

/-- A resolver that keeps no other entries than before. -/
structure Loses (r' : ScopeResolver) : Prop where
  identities_settings : r'.identities.settings = r.identities.settings
  scopes_settings : r'.scopes.settings = r.scopes.settings
  identities {key : CacheKey} {entry : CacheEntry Identity} :
    r'.identities.find? key = some entry → r.identities.find? key = some entry
  scopes {key : CacheKey} {entry : CacheEntry AccessScope} :
    r'.scopes.find? key = some entry → r.scopes.find? key = some entry

theorem Loses.refl : r.Loses r := ⟨rfl, rfl, id, id⟩

variable {r} in
theorem Loses.trans {r' r'' : ScopeResolver} (h : r.Loses r') (h' : r'.Loses r'') :
    r.Loses r'' where
  identities_settings := h'.identities_settings.trans h.identities_settings
  scopes_settings := h'.scopes_settings.trans h.scopes_settings
  identities := h.identities ∘ h'.identities
  scopes := h.scopes ∘ h'.scopes

/-- What a request on behalf of an identity can make of a resolver. -/
inductive AfterScope (identity : Identity) : ScopeResolver → Prop
  | unasked : AfterScope identity r
  | asked (options : ScopeOptions) :
      AfterScope identity (r.accessScope m env identity options).2.1

/-- What a request of a session can make of a resolver. -/
inductive AfterRequest (username : String) : ScopeResolver → Prop
  /-- The identity was not looked up. -/
  | unasked : AfterRequest username r
  | refused : AfterRequest username (r.identity m env username).2.1
  | resolved {identity : Identity} {r' : ScopeResolver}
      (hidentity : (r.identity m env username).1 = .ok identity)
      (hscope : (r.identity m env username).2.1.AfterScope (r.identity m env username).2.2 env
        identity r') :
      AfterRequest username r'

end ScopeResolver

namespace Master

variable (master : Master) (env : Surroundings) (identity : Identity) (table : String)

/-! ## Requests on behalf of an identity -/

theorem afterScope_authorize :
    master.resolver.AfterScope master.metrics env identity
      (master.authorize env identity table).2.resolver := by
  unfold authorize
  split
  · exact .unasked
  · next rule _ =>
    split
    · exact .asked rule.scopeOptions
    · exact .unasked

theorem scopedQuery_snd :
    (master.scopedQuery env identity table).2 = (master.authorize env identity table).2 := by
  unfold scopedQuery
  split
  · next hrun => rw [hrun]
  · next hrun => rw [hrun]

theorem resolver_rowCount :
    (master.rowCount env identity table).2.resolver =
      (master.scopedQuery env identity table).2.resolver := by
  unfold rowCount
  split
  · next hrun => rw [hrun]
  · next hrun => rw [hrun]

theorem afterScope_scopedQuery :
    master.resolver.AfterScope master.metrics env identity
      (master.scopedQuery env identity table).2.resolver := by
  rw [scopedQuery_snd]
  exact master.afterScope_authorize env identity table

theorem afterScope_rowCount :
    master.resolver.AfterScope master.metrics env identity
      (master.rowCount env identity table).2.resolver := by
  rw [resolver_rowCount]
  exact master.afterScope_scopedQuery env identity table

/-! ## Requests of sessions -/

variable {master env}

theorem afterRequest_withIdentity {α : Type} (session : Session)
    {next : Master → Identity → Except Fault α × Master}
    (hnext : ∀ (master' : Master) (identity : Identity),
      master'.resolver.AfterScope master'.metrics env identity (next master' identity).2.resolver) :
    master.resolver.AfterRequest master.metrics env session.username
      (session.withIdentity env master next).2.resolver := by
  unfold Session.withIdentity
  split
  · next fault master' hrun =>
    obtain rfl : (session.identity env master).2 = master' := congrArg Prod.snd hrun
    exact .refused
  · next identity master' hrun =>
    obtain rfl : (session.identity env master).2 = master' := congrArg Prod.snd hrun
    exact .resolved (congrArg Prod.fst hrun) (hnext (session.identity env master).2 identity)

theorem afterRequest_scopedQuery (session : Session) :
    master.resolver.AfterRequest master.metrics env session.username
      (session.scopedQuery env table master).2.resolver :=
  afterRequest_withIdentity session fun master' identity =>
    master'.afterScope_scopedQuery env identity table

theorem afterRequest_scopedQueryAt (session : Session) (ordinal : Int32) :
    master.resolver.AfterRequest master.metrics env session.username
      (session.scopedQueryAt env ordinal master).2.resolver := by
  unfold Session.scopedQueryAt
  split
  · next hask =>
    obtain rfl := congrArg Prod.snd hask
    exact .unasked
  · next canonical master₁ hask =>
    obtain rfl := congrArg Prod.snd hask
    split
    · next hname =>
      obtain rfl := congrArg Prod.snd hname
      exact .unasked
    · next hname =>
      obtain rfl := congrArg Prod.snd hname
      exact .unasked
    · next table master₂ hname =>
      -- Questions about versions and names leave the resolver and the metrics alone.
      have hresolver : master.resolver = master₂.resolver := congrArg (·.2.resolver) hname
      have hmetrics : master.metrics = master₂.metrics := congrArg (·.2.metrics) hname
      rw [hresolver, hmetrics]
      have hquery : master₂.resolver.AfterRequest master₂.metrics env session.username _ :=
        afterRequest_scopedQuery table session
      split
      · next hrun =>
        rw [hrun] at hquery
        exact hquery
      · next hrun =>
        rw [hrun] at hquery
        exact hquery

theorem afterRequest_answer (session : Session) (request : SessionRequest) :
    master.resolver.AfterRequest master.metrics env session.username
      (session.answer env request master).2.resolver := by
  cases request with
  | identity => exact .refused
  | authorize table =>
      exact afterRequest_withIdentity session fun master' identity =>
        master'.afterScope_authorize env identity table
  | scopedQuery table => exact afterRequest_scopedQuery table session
  | rowCount table =>
      exact afterRequest_withIdentity session fun master' identity =>
        master'.afterScope_rowCount env identity table
  | scopedQueryAt ordinal => exact afterRequest_scopedQueryAt session ordinal

/-! ## Dropping -/

theorem loses_purge (now : Tick) : master.resolver.Loses (master.purge now).2.resolver where
  identities_settings := AccessCache.settings_purge ..
  scopes_settings := AccessCache.settings_purge ..
  identities := AccessCache.find?_of_find?_retain
  scopes := AccessCache.find?_of_find?_retain

theorem loses_dropClass (master : Master) (cls : ResourceClass) :
    master.resolver.Loses (InvalidationTarget.dropClass targets cls master).2.resolver where
  identities_settings := AccessCache.settings_invalidateClass ..
  scopes_settings := AccessCache.settings_invalidateClass ..
  identities := AccessCache.find?_of_find?_retain
  scopes := AccessCache.find?_of_find?_retain

theorem loses_dropClasses (master : Master) (classes : List ResourceClass) :
    master.resolver.Loses (InvalidationTarget.dropClasses targets classes master).2.resolver := by
  rw [Keeps.dropClasses_snd]
  induction classes generalizing master with
  | nil => exact .refl _
  | cons cls classes ih => exact (loses_dropClass master cls).trans (ih _)

theorem loses_announce (event : InvalidationEvent) :
    master.resolver.Loses (master.announce event).2.resolver :=
  loses_dropClasses master _

end Master

end ControlPlane
