/-
# Scripts against a cache

A caller of a cache chooses its next operation by the answers it has had, and the
computation of a missing value is itself such a caller: it may use the cache while its own
slot is held, and it may fail. A script is one caller with everything it does in every
case. What it runs against is a machine with the operations of a cache, so that the same
script can be run against the access cache and against a specification of it.

An operation that concerns a slot held by a computation around it would wait for that
computation and so for itself. A machine has no answer there, and neither has the script.
-/

import ControlPlane.Proofs.Cache.Entries

namespace ControlPlane

open Std (ExtTreeSet)

variable {α ε σ : Type}

/-- A caller of a cache of `α`, whose computations can fail with `ε`. -/
inductive CacheScript (α ε : Type)
  | done (result : Except ε α)
  /-- Get a key, computing it by `compute` if need be. What comes next may depend on whether
  the computation ran. -/
  | get (key : CacheKey) (compute : CacheScript α ε)
      (next : Bool → Except ε α → CacheScript α ε)
  | peek (key : CacheKey) (next : Option α → CacheScript α ε)
  | invalidateClass (cls : ResourceClass) (next : Nat → CacheScript α ε)
  | invalidateAll (next : Nat → CacheScript α ε)
  | purge (next : Nat → CacheScript α ε)
  /-- The clock is set, forward or backward, to what `move` makes of its reading. -/
  | moveClock (move : Tick → Tick) (next : CacheScript α ε)

/-- What a caller sees of one operation. -/
inductive CacheEvent (α ε : Type)
  | got (key : CacheKey) (isComputed : Bool) (result : Except ε α)
  | peeked (key : CacheKey) (value : Option α)
  | dropped (count : Nat)

/-- The operations of a cache on states `σ`, with `none` where an operation would wait for
a computation around it. A get is a `lookup` and, after the computation, a `settle`. -/
structure CacheMachine (α ε σ : Type) where
  lookup : CacheKey → σ → Option (Option α × σ)
  settle : CacheKey → Except ε α → σ → σ
  peek : CacheKey → σ → Option (Option α)
  invalidateClass : ResourceClass → σ → Option (Nat × σ)
  invalidateAll : σ → Option (Nat × σ)
  purge : σ → Nat × σ
  moveClock : (Tick → Tick) → σ → σ

/-- What came of a script: what it saw, in order, and the state it left. -/
structure CacheRun (α ε σ : Type) where
  events : List (CacheEvent α ε)
  result : Except ε α
  final : σ

/-- The same run with events before it. -/
def CacheRun.after (events : List (CacheEvent α ε)) (run : CacheRun α ε σ) : CacheRun α ε σ :=
  { run with events := events ++ run.events }

/-- Run a script on a machine. There is no run if an operation has no answer. -/
def CacheScript.run (machine : CacheMachine α ε σ) :
    CacheScript α ε → σ → Option (CacheRun α ε σ)
  | .done result, state => some ⟨[], result, state⟩
  | .get key compute next, state =>
      (machine.lookup key state).bind fun
        | (some value, state) =>
            ((next false (.ok value)).run machine state).map
              (.after [.got key false (.ok value)])
        | (none, state) =>
            (compute.run machine state).bind fun inner =>
              ((next true inner.result).run machine
                  (machine.settle key inner.result inner.final)).map
                (.after (inner.events ++ [.got key true inner.result]))
  | .peek key next, state =>
      (machine.peek key state).bind fun value =>
        ((next value).run machine state).map (.after [.peeked key value])
  | .invalidateClass cls next, state =>
      (machine.invalidateClass cls state).bind fun (count, state) =>
        ((next count).run machine state).map (.after [.dropped count])
  | .invalidateAll next, state =>
      (machine.invalidateAll state).bind fun (count, state) =>
        ((next count).run machine state).map (.after [.dropped count])
  | .purge next, state =>
      let (count, state) := machine.purge state
      ((next count).run machine state).map (.after [.dropped count])
  | .moveClock move next, state => next.run machine (machine.moveClock move state)

/-! ## Simulation -/

/-- What two machines answered agrees: equal answers, and states in relation. -/
def SameAnswer {β σ τ : Type} (related : σ → τ → Prop) (a : β × σ) (b : β × τ) : Prop :=
  a.1 = b.1 ∧ related a.2 b.2

/-- One machine simulates another through a relation between their states that may depend
on the keys being computed: related states wait for the same keys, answer alike and stay
related. A lookup that serves nothing begins a computation, and settling ends one. -/
structure CacheMachine.Simulates {σ τ : Type} (related : ExtTreeSet CacheKey → σ → τ → Prop)
    (m : CacheMachine α ε σ) (n : CacheMachine α ε τ) : Prop where
  lookup {keys s t} (h : related keys s t) (key : CacheKey) :
    Option.Rel
      (fun a b => a.1 = b.1 ∧
        if a.1.isSome then related keys a.2 b.2
        else key ∉ keys ∧ related (keys.insert key) a.2 b.2)
      (m.lookup key s) (n.lookup key t)
  settle {keys s t} {key : CacheKey} (hfree : key ∉ keys) (h : related (keys.insert key) s t)
    (result : Except ε α) : related keys (m.settle key result s) (n.settle key result t)
  peek {keys s t} (h : related keys s t) (key : CacheKey) : m.peek key s = n.peek key t
  invalidateClass {keys s t} (h : related keys s t) (cls : ResourceClass) :
    Option.Rel (SameAnswer (related keys)) (m.invalidateClass cls s) (n.invalidateClass cls t)
  invalidateAll {keys s t} (h : related keys s t) :
    Option.Rel (SameAnswer (related keys)) (m.invalidateAll s) (n.invalidateAll t)
  purge {keys s t} (h : related keys s t) : SameAnswer (related keys) (m.purge s) (n.purge t)
  moveClock {keys s t} (h : related keys s t) (move : Tick → Tick) :
    related keys (m.moveClock move s) (n.moveClock move t)

/-- Two runs look the same to their caller and leave states in relation. -/
structure SameRun {σ τ : Type} (related : σ → τ → Prop) (r : CacheRun α ε σ)
    (r' : CacheRun α ε τ) : Prop where
  events : r.events = r'.events
  result : r.result = r'.result
  final : related r.final r'.final

theorem SameRun.after {σ τ : Type} {related : σ → τ → Prop} {r : CacheRun α ε σ}
    {r' : CacheRun α ε τ} (h : SameRun related r r') (events : List (CacheEvent α ε)) :
    SameRun related (r.after events) (r'.after events) where
  events := congrArg (events ++ ·) h.events
  result := h.result
  final := h.final

/-- Continuations that agree on agreeing answers agree, waiting included. -/
theorem rel_bind {β γ β' γ' : Type} {R : β → γ → Prop} {R' : β' → γ' → Prop}
    {x : Option β} {y : Option γ} {f : β → Option β'} {g : γ → Option γ'}
    (h : Option.Rel R x y) (hnext : ∀ b c, R b c → Option.Rel R' (f b) (g c)) :
    Option.Rel R' (x.bind f) (y.bind g) := by
  cases h with
  | none => exact .none
  | some hbc => exact hnext _ _ hbc

/-- Runs that look the same still do with the same events before them. -/
theorem rel_map_after {σ τ : Type} {related : σ → τ → Prop} {r : Option (CacheRun α ε σ)}
    {r' : Option (CacheRun α ε τ)} (h : Option.Rel (SameRun related) r r')
    (events : List (CacheEvent α ε)) :
    Option.Rel (SameRun related) (r.map (.after events)) (r'.map (.after events)) := by
  cases h with
  | none => exact .none
  | some hsame => exact .some (hsame.after events)

/-- A script runs alike on a machine and on one that it simulates: it waits for ever on
both, or sees the same on both. -/
theorem CacheScript.rel_run {σ τ : Type} {related : ExtTreeSet CacheKey → σ → τ → Prop}
    {m : CacheMachine α ε σ} {n : CacheMachine α ε τ} (hsim : m.Simulates related n)
    (script : CacheScript α ε) {keys : ExtTreeSet CacheKey} {s : σ} {t : τ}
    (h : related keys s t) :
    Option.Rel (SameRun (related keys)) (script.run m s) (script.run n t) := by
  induction script generalizing keys s t with
  | done result => exact .some ⟨rfl, rfl, h⟩
  | get key compute next ihcompute ihnext =>
      simp only [run]
      apply rel_bind (hsim.lookup h key)
      rintro ⟨served, s'⟩ ⟨served', t'⟩ ⟨hserved, hstates⟩
      obtain rfl : served = served' := hserved
      cases served with
      | some value => exact rel_map_after (ihnext _ _ hstates) _
      | none =>
          -- The key joins those being computed until the computation is settled.
          obtain ⟨hfree, hheld⟩ := hstates
          apply rel_bind (ihcompute hheld)
          intro inner inner' hinner
          have hsettled := hsim.settle hfree hinner.final inner.result
          rw [← hinner.result, ← hinner.events]
          exact rel_map_after (ihnext _ _ hsettled) _
  | peek key next ih =>
      simp only [run, hsim.peek h key]
      cases n.peek key t with
      | none => exact .none
      | some value => exact rel_map_after (ih value h) _
  | invalidateClass cls next ih =>
      simp only [run]
      apply rel_bind (hsim.invalidateClass h cls)
      rintro ⟨count, s'⟩ ⟨count', t'⟩ ⟨hcount, hstates⟩
      obtain rfl : count = count' := hcount
      exact rel_map_after (ih count hstates) _
  | invalidateAll next ih =>
      simp only [run]
      apply rel_bind (hsim.invalidateAll h)
      rintro ⟨count, s'⟩ ⟨count', t'⟩ ⟨hcount, hstates⟩
      obtain rfl : count = count' := hcount
      exact rel_map_after (ih count hstates) _
  | purge next ih =>
      obtain ⟨hcount, hstates⟩ := hsim.purge h
      simp only [run, hcount]
      exact rel_map_after (ih _ hstates) _
  | moveClock move next ih => exact ih (hsim.moveClock h move)

/-! ## The access cache as a machine -/

/-- An access cache with the metrics it counts in and the clock it reads. -/
structure CacheState (α : Type) where
  cache : AccessCache α
  metrics : Metrics
  now : Tick

/-- An answer of the cache, with the state it leaves. -/
def CacheState.answer {β : Type} (s : CacheState α) (outcome : β × AccessCache α × Metrics) :
    β × CacheState α :=
  (outcome.1, { s with cache := outcome.2.1, metrics := outcome.2.2 })

namespace AccessCache

/-- Whether a computation holds the slot of a key that satisfies `concerned`. -/
def holdsAny (c : AccessCache α) (concerned : CacheKey → Bool) : Bool :=
  c.slots.toList.any fun slot => slot.2.isComputing && concerned slot.1

theorem holdsAny_eq_true_iff {c : AccessCache α} {concerned : CacheKey → Bool} :
    c.holdsAny concerned = true ↔ ∃ key, c.isHeld key = true ∧ concerned key = true := by
  simp only [holdsAny, isHeld, List.any_eq_true, Prod.exists, Bool.and_eq_true,
    Std.ExtTreeMap.mem_toList_iff_getElem?_eq_some, Option.any_eq_true_iff_get]
  constructor
  · rintro ⟨key, slot, hslot, hcomputing, hconcerned⟩
    exact ⟨key, ⟨by simp [hslot], by simp [hslot, hcomputing]⟩, hconcerned⟩
  · rintro ⟨key, ⟨hsome, hcomputing⟩, hconcerned⟩
    exact ⟨key, _, (Option.some_get hsome).symm, hcomputing, hconcerned⟩

/-- Where nothing concerned is held, a slot that is held is not concerned. -/
theorem concerned_eq_false_of_holdsAny {c : AccessCache α} {concerned : CacheKey → Bool}
    (h : c.holdsAny concerned = false) {key : CacheKey} {slot : CacheSlot α}
    (hslot : c.slots[key]? = some slot) (hcomputing : slot.isComputing = true) :
    concerned key = false := by
  cases hconcerned : concerned key with
  | false => rfl
  | true =>
      have hany : c.holdsAny concerned = true :=
        holdsAny_eq_true_iff.mpr ⟨key, by simp [isHeld, hslot, hcomputing], hconcerned⟩
      rw [h] at hany
      exact absurd hany Bool.false_ne_true

/-- The access cache. Purging tries each slot instead of waiting for it. -/
def machine : CacheMachine α ε (CacheState α) where
  lookup key s :=
    if s.cache.isHeld key then none else some (s.answer (s.cache.lookup s.metrics key s.now))
  settle key result s := { s with cache := s.cache.settle key s.now result }
  peek key s := if s.cache.isHeld key then none else some (s.cache.peek key s.now)
  invalidateClass cls s :=
    if s.cache.holdsAny (·.cls == cls) then none
    else some (s.answer (s.cache.invalidateClass s.metrics cls))
  invalidateAll s :=
    if s.cache.holdsAny (fun _ => true) then none
    else some (s.answer (s.cache.invalidateAll s.metrics))
  purge s := s.answer (s.cache.purge s.metrics s.now)
  moveClock move s := { s with now := move s.now }

/-- A get whose computation leaves the cache alone is `getOrCompute`. -/
theorem run_get_done {s : CacheState α} {key : CacheKey} (hfree : s.cache.isHeld key = false)
    (result : Except ε α) (next : Bool → Except ε α → CacheScript α ε) :
    (CacheScript.get key (.done result) next).run machine s =
      let (answer, cache, metrics) :=
        s.cache.getOrCompute s.metrics key s.now fun m => (result, m)
      let isComputed := (s.cache.peek key s.now).isNone
      ((next isComputed answer).run machine { s with cache, metrics }).map
        (.after [.got key isComputed answer]) := by
  cases hpeek : s.cache.peek key s.now with
  | some value =>
      simp [CacheScript.run, machine, CacheState.answer, hfree, getOrCompute,
        lookup_of_peek_eq_some hpeek]
  | none =>
      simp [CacheScript.run, machine, CacheState.answer, hfree, getOrCompute,
        lookup_of_peek_eq_none hpeek]

end AccessCache

end ControlPlane
