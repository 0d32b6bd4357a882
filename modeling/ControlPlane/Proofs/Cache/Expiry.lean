/-
# When an entry may be served

An entry was stored at one reading of the clock and is served at another, a later one or, after
the clock was set back, an earlier one. How far the two can lie apart follows from what is
configured, in arithmetic without bounds: later by less than the lifetime, earlier by no more
than what the bound on the age leaves beyond the lifetime. The expiry of an entry is an instant,
though, and no instant lies beyond the last one that a clock can read. An entry that would
expire later than that expires at the last instant, and only the age bound counted from there
limits how early it is served.

The entries of a cache are those that computations have stored, whatever else is done to it: an
entry that is served was stored in one of the steps of the very run on which it is served. This is
shown for caches whose operations follow one another and for callers at the same time.
-/

import ControlPlane.Config.Basic
import ControlPlane.Proofs.Cache.Accounting
import ControlPlane.Proofs.Cache.Sections
import ControlPlane.Proofs.Cache.PlainMap

namespace ControlPlane

open Std (ExtTreeMap)

/-! ## Exact time -/

namespace Tick

/-- A reading as a number. -/
def millis (t : Tick) : ℤ :=
  t.ms.toNat

/-- The last reading. -/
def last : Tick := ⟨UInt64.ofNat (UInt64.size - 1)⟩

end Tick

namespace CacheConfig

/-- How caches are set up. -/
def settings (c : CacheConfig) : CacheSettings where
  ttl := c.ttl
  maxAge := c.maxAge

/-- The lifetime of an entry in milliseconds, which a word need not hold. -/
def ttlMillis (c : CacheConfig) : ℤ :=
  c.ttlSeconds.toNat * 1000

/-- The longest plausible lifetime in milliseconds. -/
def maxAgeMillis (c : CacheConfig) : ℤ :=
  (c.maxAgeSeconds.getD c.ttlSeconds).toNat * 1000

/-- The readings at which an entry was stored and is served. -/
structure InTime (c : CacheConfig) (storedAt now : Tick) : Prop where
  later : storedAt.millis ≤ now.millis → now.millis - storedAt.millis < c.ttlMillis
  earlier : now.millis < storedAt.millis →
    storedAt.millis + c.ttlMillis ≤ Tick.last.millis →
      storedAt.millis - now.millis ≤ c.maxAgeMillis - c.ttlMillis
  /-- The entry expires at the last instant, before its lifetime is over. -/
  earlier_of_capped : now.millis < storedAt.millis →
    Tick.last.millis < storedAt.millis + c.ttlMillis →
      Tick.last.millis - now.millis ≤ c.maxAgeMillis
  not_earlier : c.maxAgeSeconds = none →
    storedAt.millis + c.ttlMillis ≤ Tick.last.millis → storedAt.millis ≤ now.millis

/-- The saturating comparison of an entry with the clock keeps to exact time. -/
theorem inTime_of_isLive (c : CacheConfig) {α : Type} {value : α} {storedAt now : Tick}
    (h : (CacheEntry.store value storedAt c.ttl).isLive now c.maxAge = true) :
    c.InTime storedAt now := by
  -- the entry decides as the plain map does, which knows one saturation only
  have hentry := Stored.isLive_entry c.settings now ⟨value, storedAt⟩
  obtain ⟨hbefore, hbound⟩ := of_decide_eq_true (hentry.symm.trans h)
  simp only [Stored.expiry, settings, ttl, maxAge, Duration.toNat_millis_ofSeconds]
    at hbefore hbound
  have hlast : Tick.last.millis = UInt64.size - 1 := rfl
  simp only [UInt64.size] at hbefore hbound hlast
  have hearlier (hcap : storedAt.millis + c.ttlMillis ≤ Tick.last.millis) :
      storedAt.millis - now.millis ≤ c.maxAgeMillis - c.ttlMillis := by
    simp only [Tick.millis, ttlMillis, maxAgeMillis] at hcap hlast ⊢
    omega
  constructor
  · intro _
    simp only [Tick.millis, ttlMillis]
    omega
  · exact fun _ => hearlier
  · intro _ hcap
    simp only [Tick.millis, ttlMillis, maxAgeMillis] at hcap hlast ⊢
    omega
  · intro hdefault hcap
    have hequal : c.maxAgeMillis = c.ttlMillis := by
      rw [maxAgeMillis, hdefault, Option.getD_none, ttlMillis]
    have hbound := hearlier hcap
    omega

end CacheConfig

/-! ## Runs by their states -/

/-- A run by the states that it passes through, the first and the last among them. -/
inductive PassesThrough {σ : Type} (step : σ → σ → Prop) (start : σ) : List σ → σ → Prop
  | start : PassesThrough step start [start] start
  | step {states : List σ} {s s' : σ} (hpasses : PassesThrough step start states s)
      (hstep : step s s') : PassesThrough step start (states ++ [s']) s'

/-- In one of the steps of a run something happened. -/
def Happened {σ : Type} (event : σ → σ → Prop) (states : List σ) : Prop :=
  ∃ s s', [s, s'] <:+: states ∧ event s s'

section

variable {σ : Type} {step event event' : σ → σ → Prop} {start s s' : σ} {states : List σ}

theorem Happened.mono (h : Happened event states) (himp : ∀ s s', event s s' → event' s s') :
    Happened event' states := by
  obtain ⟨s, s', hnext, hevent⟩ := h
  exact ⟨s, s', hnext, himp s s' hevent⟩

theorem Happened.append (h : Happened event states) (later : List σ) :
    Happened event (states ++ later) := by
  obtain ⟨s, s', hnext, hevent⟩ := h
  exact ⟨s, s', hnext.trans (List.prefix_append ..).isInfix, hevent⟩

theorem PassesThrough.exists_eq_concat (h : PassesThrough step start states s) :
    ∃ earlier, states = earlier ++ [s] := by
  cases h with
  | start => exact ⟨[], rfl⟩
  | step => exact ⟨_, rfl⟩

/-- What happens in the last step of a run happened on it. -/
theorem PassesThrough.happened_concat (h : PassesThrough step start states s)
    (hevent : event s s') : Happened event (states ++ [s']) := by
  obtain ⟨earlier, rfl⟩ := h.exists_eq_concat
  exact ⟨s, s', ⟨earlier, [], by simp⟩, hevent⟩

/-- What holds in the end and did not hold at first was brought about on the way. -/
theorem PassesThrough.happened {P : σ → Prop} (h : PassesThrough step start states s)
    (hstart : ¬ P start)
    (hstep : ∀ {states s s'}, PassesThrough step start states s → step s s' → P s' →
      P s ∨ event s s')
    (hend : P s) : Happened event states := by
  induction h with
  | start => exact absurd hend hstart
  | step hpasses hnext ih =>
      rcases hstep hpasses hnext hend with hbefore | hevent
      · exact (ih hbefore).append _
      · exact hpasses.happened_concat hevent

end

/-! ## Operations one after the other -/

namespace CachePool

variable {ι : Type} [DecidableEq ι] {α : ι → Type} {start p p' : CachePool α}
  {states : List (CachePool α)} {records : List (CacheRecord ι)} {record : CacheRecord ι}
  {i j : ι} {key : CacheKey}

/-- An operation leads from one pool to another. -/
def Next (p p' : CachePool α) : Prop :=
  ∃ record, p.Step record p'

theorem Run.exists_passesThrough (hrun : start.Run records p) :
    ∃ states, PassesThrough Next start states p := by
  induction hrun with
  | refl => exact ⟨_, .start⟩
  | step _ hstep ih =>
      obtain ⟨states, hpasses⟩ := ih
      exact ⟨_, hpasses.step ⟨_, hstep⟩⟩

/-- The end of a computation stores an entry under its key. -/
structure Stores (p : CachePool α) (i : ι) (key : CacheKey) (entry : CacheEntry (α i))
    (p' : CachePool α) : Prop where
  isHeld : (p.caches i).isHeld key = true
  entry_eq : entry = .store entry.value entry.storedAt (p.caches i).settings.ttl
  pool_eq : p' = p.put i
    ((p.caches i).settle key entry.storedAt (.ok entry.value : Except Unit (α i)), p.metrics)

theorem settings_put {outcome : AccessCache (α j) × Metrics}
    (hsettings : outcome.1.settings = (p.caches j).settings) :
    ((p.put j outcome).caches i).settings = (p.caches i).settings := by
  by_cases heq : i = j
  · subst heq
    rw [caches_put_self, hsettings]
  · rw [caches_put_of_ne p heq]

/-- An operation that brings no entry into its cache brings none into any. -/
theorem find?_of_find?_put {outcome : AccessCache (α j) × Metrics}
    (hkept : ∀ {key entry}, outcome.1.find? key = some entry →
      (p.caches j).find? key = some entry)
    {entry : CacheEntry (α i)} (h : ((p.put j outcome).caches i).find? key = some entry) :
    (p.caches i).find? key = some entry := by
  by_cases heq : i = j
  · subst heq
    rw [caches_put_self] at h
    exact hkept h
  · rwa [caches_put_of_ne p heq] at h

theorem settings_step (hstep : p.Step record p') (i : ι) :
    (p'.caches i).settings = (p.caches i).settings := by
  cases hstep with
  | ask hfree now => exact settings_put (AccessCache.settings_lookup ..)
  | settle hheld now result => exact settings_put (AccessCache.settings_settle ..)
  | invalidateClass hfree => exact settings_put (AccessCache.settings_invalidateClass ..)
  | invalidateAll hfree => exact settings_put (AccessCache.settings_invalidateAll ..)
  | purge j now => exact settings_put (AccessCache.settings_purge ..)
  | other m hcounters => rfl

/-- An entry was there before a step, or the step stores it. -/
theorem find?_of_step (hstep : p.Step record p') {entry : CacheEntry (α i)}
    (h : (p'.caches i).find? key = some entry) :
    (p.caches i).find? key = some entry ∨ p.Stores i key entry p' := by
  cases hstep with
  | ask hfree now =>
      exact .inl (find?_of_find?_put (fun h => by rwa [AccessCache.find?_lookup] at h) h)
  | @settle j other hheld now ε result =>
      cases result with
      | error cause =>
          refine .inl (find?_of_find?_put (fun h => ?_) h)
          rwa [AccessCache.find?_settle_error] at h
      | ok value =>
          by_cases hcache : i = j
          · subst hcache
            rw [caches_put_self, AccessCache.find?_settle_ok hheld] at h
            by_cases hkey : other = key
            · subst hkey
              rw [if_pos rfl] at h
              obtain rfl := Option.some.inj h
              exact .inr ⟨hheld, rfl, rfl⟩
            · rw [if_neg hkey] at h
              exact .inl h
          · rw [caches_put_of_ne p hcache] at h
            exact .inl h
  | invalidateClass hfree => exact .inl (find?_of_find?_put AccessCache.find?_of_find?_retain h)
  | invalidateAll hfree => exact .inl (find?_of_find?_put AccessCache.find?_of_find?_retain h)
  | purge j now => exact .inl (find?_of_find?_put AccessCache.find?_of_find?_retain h)
  | other m hcounters => exact .inl h

theorem settings_eq_of_passesThrough (hpasses : PassesThrough Next start states p) (i : ι) :
    (p.caches i).settings = (start.caches i).settings := by
  induction hpasses with
  | start => rfl
  | step _ hstep ih =>
      obtain ⟨record, hstep⟩ := hstep
      rw [settings_step hstep, ih]

/-- Every entry of a cache that was empty at first was stored on the way, for the lifetime that is
set. -/
theorem stored_of_find? (hpasses : PassesThrough Next start states p)
    (hempty : (start.caches i).slots = ∅) {entry : CacheEntry (α i)}
    (h : (p.caches i).find? key = some entry) :
    Happened (fun before after => before.Stores i key entry after) states
    ∧ entry = .store entry.value entry.storedAt (start.caches i).settings.ttl := by
  have hnone : ¬ (start.caches i).find? key = some entry := by
    simp [AccessCache.find?, hempty]
  have hstored : Happened (fun before after => before.Stores i key entry after
      ∧ (before.caches i).settings = (start.caches i).settings) states := by
    refine hpasses.happened (P := fun p => (p.caches i).find? key = some entry) hnone
      (fun hbefore hstep hafter => ?_) h
    obtain ⟨record, hstep⟩ := hstep
    exact (find?_of_step hstep hafter).imp_right fun hstores =>
      ⟨hstores, settings_eq_of_passesThrough hbefore i⟩
  refine ⟨hstored.mono fun _ _ => And.left, ?_⟩
  obtain ⟨before, after, -, hstores, hsettings⟩ := hstored
  rw [← hsettings]
  exact hstores.entry_eq

end CachePool

/-! ## Callers at the same time -/

namespace SharedCache

variable {α ε : Type} {w w' : SharedCache α ε} {states : List (SharedCache α ε)}
  {settings : CacheSettings} {key : CacheKey} {s n : Nat}

/-- A caller that asks for a key has its slot, with the lock free, and by this reading of the
clock it is served. -/
def Serves (w : SharedCache α ε) (key : CacheKey) (s : Nat) (now : Tick) (value : α) : Prop :=
  ∃ n c slot,
    (w.At n c (.get key) (.queued s) ∧ slot.isRetired = false ∨ w.At n c (.peek key) (.queued s))
    ∧ w.Free s slot ∧ slot.live? now w.settings.maxAge = some value

theorem Serves.exists_slot {now : Tick} {value : α} (h : w.Serves key s now value)
    (hsound : w.Sound) :
    ∃ slot, w.slots s = some slot ∧ slot.key = key
      ∧ slot.live? now w.settings.maxAge = some value := by
  obtain ⟨n, c, slot, hat, hfree, hlive⟩ := h
  have hlookedUp : w.LookedUp c s ∧ c.op.key? = some key := by
    rcases hat with ⟨hat, -⟩ | hat
    · exact ⟨(hat.sound hsound).2, by rw [hat.op, CacheOp.key?]⟩
    · exact ⟨(hat.sound hsound).2, by rw [hat.op, CacheOp.key?]⟩
  obtain ⟨⟨other, hother, hkey, -⟩, hop⟩ := hlookedUp
  obtain rfl := Option.some.inj (hfree.found.symm.trans hother)
  exact ⟨slot, hfree.found, Option.some.inj (hkey.symm.trans hop), hlive⟩

/-- The computation of a caller ends and stores an entry in the slot of its key. -/
def Stores (w : SharedCache α ε) (key : CacheKey) (s : Nat) (entry : CacheEntry α)
    (w' : SharedCache α ε) : Prop :=
  ∃ n c slot, w.At n c (.get key) (.computing s) ∧ w.slots s = some slot
    ∧ entry = .store entry.value entry.storedAt w.settings.ttl
    ∧ w' = (w.setSlot s { slot with holder := none, author := n, entry := some entry }).put n
      { c with stage := .served s n entry.value }

theorem settings_step (hstep : w.Step w') : w'.settings = w.settings := by
  cases hstep <;> rfl

/-- A slot of a key has an entry. -/
def EntryIn (w : SharedCache α ε) (s : Nat) (key : CacheKey) (entry : CacheEntry α) : Prop :=
  ∃ slot, w.slots s = some slot ∧ slot.key = key ∧ slot.entry = some entry

theorem slots_of_update {t : Nat} {changed slot' : SharedSlot α} (hslot' : w'.slots s = some slot')
    (hslots : w'.slots = Function.update w.slots t (some changed)) :
    s = t ∧ slot' = changed ∨ w.slots s = some slot' := by
  rw [hslots] at hslot'
  by_cases heq : s = t
  · subst heq
    rw [Function.update_self] at hslot'
    exact .inl ⟨rfl, (Option.some.inj hslot').symm⟩
  · rw [Function.update_of_ne heq] at hslot'
    exact .inr hslot'

/-- A slot that is changed and gets no new entry has none that it did not have. -/
theorem entryIn_of_update {t : Nat} {slot changed slot' : SharedSlot α} {entry : CacheEntry α}
    (hslot' : w'.slots s = some slot') (h : slot'.entry = some entry)
    (hslot : w.slots t = some slot)
    (hslots : w'.slots = Function.update w.slots t (some changed)) (hkey : changed.key = slot.key)
    (hentry : changed.entry = slot.entry ∨ changed.entry = none) :
    w.EntryIn s slot'.key entry := by
  rcases slots_of_update hslot' hslots with ⟨rfl, rfl⟩ | hsame
  · rcases hentry with hsame | hnone
    · exact ⟨slot, hslot, hkey.symm, hsame ▸ h⟩
    · rw [hnone] at h
      cases h
  · exact ⟨slot', hsame, rfl, h⟩

/-- Slots keep their entries when they leave the map. -/
theorem entryIn_of_detach {gone : CacheKey → Nat → Bool} {retire : Bool} {slot' : SharedSlot α}
    {entry : CacheEntry α} (hslot' : (w.detach n gone retire).slots s = some slot')
    (h : slot'.entry = some entry) : w.EntryIn s slot'.key entry := by
  obtain ⟨slot, hslot, rfl⟩ := Option.map_eq_some_iff.mp hslot'
  refine ⟨slot, hslot, ?_⟩
  revert h
  rw [leave]
  split
  · exact fun h => ⟨rfl, h⟩
  · exact fun h => ⟨rfl, h⟩

/-- An entry was in its slot before a section, or the section stores it. -/
theorem entryIn_or_stores_of_step (hsound : w.Sound) (hstep : w.Step w') {slot' : SharedSlot α}
    {entry : CacheEntry α} (hslot' : w'.slots s = some slot') (h : slot'.entry = some entry) :
    w.EntryIn s slot'.key entry ∨ w.Stores slot'.key s entry w' := by
  cases hstep with
  | create hat hnone hfresh =>
      rcases slots_of_update hslot' rfl with ⟨rfl, rfl⟩ | hsame
      · cases h
      · exact .inl ⟨slot', hsame, rfl, h⟩
  | begin hat hfree hretired now hlive =>
      exact .inl (entryIn_of_update hslot' h hfree.found rfl rfl (.inl rfl))
  | @store n c key t slot hat hslot now value =>
      rcases slots_of_update hslot' rfl with ⟨rfl, rfl⟩ | hsame
      · -- the slot of a computation is one of its key
        obtain ⟨other, hother, hkey, -⟩ := (hat.sound hsound).2.1
        obtain rfl := Option.some.inj (hslot.symm.trans hother)
        rw [hat.op] at hkey
        obtain rfl := Option.some.inj hkey
        obtain rfl := Option.some.inj h
        exact .inr ⟨n, c, slot, hat, hslot, rfl, rfl⟩
      · exact .inl ⟨slot', hsame, rfl, h⟩
  | fail hat hslot cause => exact .inl (entryIn_of_update hslot' h hslot rfl rfl (.inl rfl))
  | retire hat hmem hslot => exact .inl (entryIn_of_update hslot' h hslot rfl rfl (.inl rfl))
  | empty hat hfree => exact .inl (entryIn_of_update hslot' h hfree.found rfl rfl (.inr rfl))
  | detach hat hop => exact .inl (entryIn_of_detach hslot' h)
  | sweep hat hdropped => exact .inl (entryIn_of_detach hslot' h)
  | start | find | miss | retry | hit | see | seeNothing | finish | readClock =>
      exact .inl ⟨slot', hslot', rfl, h⟩

theorem Reaches.settings_eq (h : Reaches settings w) : w.settings = settings := by
  induction h with
  | new => rfl
  | step _ hstep ih => rw [settings_step hstep, ih]

theorem reaches_of_passesThrough (hpasses : PassesThrough Step (new settings) states w) :
    Reaches settings w := by
  induction hpasses with
  | start => exact .new
  | step _ hstep ih => exact ih.step hstep

/-- Every entry of a slot was stored in it on the way, for the lifetime that is set. -/
theorem stored_of_entryIn (hpasses : PassesThrough Step (new settings) states w)
    {entry : CacheEntry α} (h : w.EntryIn s key entry) :
    Happened (fun before after => before.Stores key s entry after) states
    ∧ entry = .store entry.value entry.storedAt settings.ttl := by
  have hnone : ¬ (new settings : SharedCache α ε).EntryIn s key entry := by
    rintro ⟨slot, ⟨⟩, -⟩
  have hstored : Happened (fun before after => before.Stores key s entry after
      ∧ before.settings = settings) states := by
    refine hpasses.happened (P := fun w => w.EntryIn s key entry) hnone
      (fun hbefore hstep hafter => ?_) h
    have hreaches := reaches_of_passesThrough hbefore
    obtain ⟨slot', hslot', rfl, hentry⟩ := hafter
    exact (entryIn_or_stores_of_step hreaches.sound hstep hslot' hentry).imp_right fun hstores =>
      ⟨hstores, hreaches.settings_eq⟩
  refine ⟨hstored.mono fun _ _ => And.left, ?_⟩
  obtain ⟨before, after, -, ⟨_, _, _, -, -, hentry, -⟩, hsettings⟩ := hstored
  rw [← hsettings]
  exact hentry

end SharedCache

/-! ## Whatever is served -/

/-- Whatever the clock reads and whatever else is done to a cache, an entry that is served was
stored in a step of the same run, less than a lifetime before it is served, or after by no more than
the age bound exceeds the lifetime, as far as its expiry is not past the last reading of all. -/
theorem CacheConfig.served_inTime (c : CacheConfig) :
    (∀ {ι : Type} [DecidableEq ι] {α : ι → Type} {start p : CachePool α}
        {states : List (CachePool α)} {i : ι} {key : CacheKey} {now : Tick} {value : α i},
      (start.caches i).slots = ∅ → (start.caches i).settings = c.settings →
        PassesThrough CachePool.Next start states p →
        ((p.caches i).peek key now = some value
          ∨ ((p.caches i).lookup p.metrics key now).1 = some value) →
        ∃ entry, (p.caches i).find? key = some entry ∧ entry.value = value
          ∧ Happened (fun before after => before.Stores i key entry after) states
          ∧ c.InTime entry.storedAt now)
    ∧ ∀ {α ε : Type} {w : SharedCache α ε} {states : List (SharedCache α ε)} {key : CacheKey}
        {s : Nat} {now : Tick} {value : α},
      PassesThrough SharedCache.Step (.new c.settings) states w → w.Serves key s now value →
        ∃ entry, w.EntryIn s key entry ∧ entry.value = value
          ∧ Happened (fun before after => before.Stores key s entry after) states
          ∧ c.InTime entry.storedAt now := by
  constructor
  · intro ι _ α start p states i key now value hempty hsettings hpasses hserved
    rw [AccessCache.lookup_fst, or_self] at hserved
    obtain ⟨entry, hfind, hlive, hvalue⟩ := AccessCache.peek_eq_some_iff.mp hserved
    obtain ⟨hstored, hentry⟩ := CachePool.stored_of_find? hpasses hempty hfind
    rw [hsettings] at hentry
    rw [CachePool.settings_eq_of_passesThrough hpasses, hsettings, hentry] at hlive
    exact ⟨entry, hfind, hvalue, hstored, c.inTime_of_isLive hlive⟩
  · intro α ε w states key s now value hpasses hserved
    have hreaches := SharedCache.reaches_of_passesThrough hpasses
    obtain ⟨slot, hslot, hkey, hserved⟩ := hserved.exists_slot hreaches.sound
    obtain ⟨entry, hfiltered, hvalue⟩ := Option.map_eq_some_iff.mp hserved
    obtain ⟨hkept, hlive⟩ := Option.filter_eq_some_iff.mp hfiltered
    have hentryIn : w.EntryIn s key entry := ⟨slot, hslot, hkey, hkept⟩
    obtain ⟨hstored, hentry⟩ := SharedCache.stored_of_entryIn hpasses hentryIn
    rw [hreaches.settings_eq, hentry] at hlive
    exact ⟨entry, hentryIn, hvalue, hstored, c.inTime_of_isLive hlive⟩

/-- Entries may be older than they last. -/
def lenient : CacheConfig := { ttlSeconds := 10, maxAgeSeconds := some 60 }

def lenientPool : CachePool fun _ : Unit => Nat where
  caches _ := { name := "ids", settings := lenient.settings }
  metrics := {}

/-- The clock is set back by forty seconds between storing and serving. -/
theorem served_inTime_of_clockSetBack :
    (∃ (p : CachePool fun _ : Unit => Nat) (states : List (CachePool fun _ : Unit => Nat)),
      PassesThrough CachePool.Next lenientPool states p
      ∧ (p.caches ()).peek CachePool.opsKey ⟨60000⟩ = some 1
      ∧ ∃ entry, (p.caches ()).find? CachePool.opsKey = some entry ∧ entry.value = 1
        ∧ Happened (fun before after => before.Stores () CachePool.opsKey entry after) states
        ∧ lenient.InTime entry.storedAt ⟨60000⟩)
    ∧ ∃ (w : SharedCache Nat Unit) (states : List (SharedCache Nat Unit)),
      PassesThrough SharedCache.Step (.new lenient.settings) states w
      ∧ w.Serves CachePool.opsKey 0 ⟨60000⟩ 1
      ∧ ∃ entry, w.EntryIn 0 CachePool.opsKey entry ∧ entry.value = 1
        ∧ Happened (fun before after => before.Stores CachePool.opsKey 0 entry after) states
        ∧ lenient.InTime entry.storedAt ⟨60000⟩ := by
  obtain ⟨hpools, hshared⟩ := lenient.served_inTime
  constructor
  · have hempty : lenientPool.Run [] lenientPool := .refl
    have hfree : (lenientPool.caches ()).isHeld CachePool.opsKey = false := by decide +kernel
    have hrun := hempty.getOrCompute hfree ⟨100000⟩ (.ok 1 : Except Unit Nat)
    have hserved : ((lenientPool.put () ((lenientPool.caches ()).getOrCompute lenientPool.metrics
        CachePool.opsKey ⟨100000⟩ fun m => ((.ok 1 : Except Unit Nat), m)).2).caches ()).peek
          CachePool.opsKey ⟨60000⟩ = some 1 := by
      decide +kernel
    obtain ⟨states, hpasses⟩ := hrun.exists_passesThrough
    exact ⟨_, states, hpasses, hserved, hpools rfl rfl hpasses (.inl hserved)⟩
  · have h₀ : PassesThrough SharedCache.Step (.new lenient.settings) _
        (.new lenient.settings : SharedCache Nat Unit) := .start
    have h₁ := h₀.step (.start (n := 0) (.get CachePool.opsKey) rfl)
    have h₂ := h₁.step (.create (n := 0) (s := 0) ⟨rfl, rfl, rfl⟩ (by decide +kernel) rfl)
    have h₃ := h₂.step (.begin (n := 0) ⟨rfl, rfl, rfl⟩ ⟨rfl, rfl⟩ rfl ⟨100000⟩ rfl)
    have h₄ := h₃.step (.store (n := 0) ⟨rfl, rfl, rfl⟩ rfl ⟨100000⟩ 1)
    have h₅ := h₄.step (.start (n := 1) (.peek CachePool.opsKey) rfl)
    have h₆ := h₅.step (.find (n := 1) (s := 0) ⟨rfl, rfl, rfl⟩ rfl (by decide +kernel))
    refine ⟨_, _, h₆, ?served, hshared h₆ ?served⟩
    exact ⟨1, _, _, .inr ⟨rfl, rfl, rfl⟩, ⟨rfl, rfl⟩, by decide +kernel⟩

/-- Stored at the last reading of all, an entry expires at once. After the clock was set back it is
served all the same, before the reading at which it was stored, although the age bound is the
lifetime. -/
theorem served_before_stored :
    let c : CacheConfig := {}
    let cache : AccessCache Nat := { name := "ids", settings := c.settings }
    let kept := (cache.getOrCompute {} CachePool.opsKey Tick.last fun m =>
      ((.ok 1 : Except Unit Nat), m)).2.1
    let now : Tick := ⟨18446744073709550615⟩
    ({ cache := c } : Config).validate = .ok () ∧ c.maxAgeSeconds = none
    ∧ (kept.find? CachePool.opsKey).map (·.storedAt) = some Tick.last
    ∧ kept.peek CachePool.opsKey now = some 1
    ∧ now.millis < Tick.last.millis
    ∧ ¬ Tick.last.millis - now.millis ≤ c.maxAgeMillis - c.ttlMillis := by
  refine ⟨rfl, rfl, ?_, ?_, ?_, ?_⟩ <;> decide +kernel

end ControlPlane
