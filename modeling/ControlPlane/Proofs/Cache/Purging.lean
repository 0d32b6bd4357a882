/-
# Purging changes no lookup

A purge takes away entries that cannot be served. While the clock is never set back, and no
entry lives longer than an entry may, what cannot be served has expired and will never be
served again. So a caller does not notice purges that are put into a run, wherever they are put:
every lookup gets the same answer, and computes in the same cases.

Neither condition can be left out. A clock that is set back brings expired entries to life, and
an entry that outlives the bound is served only later, when less of its life is left.
-/

import ControlPlane.Proofs.Cache.Script

namespace ControlPlane

open Std (ExtTreeSet)

variable {α ε : Type}

/-! ## Runs with more purges -/

/-- A script with purges put in anywhere, also inside computations. More purges leave less to
drop, so what is done next must not hang on how much was dropped: both scripts go on with the
same operations whatever they are told of that. -/
inductive CacheScript.MorePurges : CacheScript α ε → CacheScript α ε → Prop
  | done (result : Except ε α) : MorePurges (.done result) (.done result)
  | get (key : CacheKey) {compute compute' : CacheScript α ε}
      {next next' : Bool → Except ε α → CacheScript α ε} (hcompute : MorePurges compute compute')
      (hnext : ∀ isComputed result, MorePurges (next isComputed result) (next' isComputed result)) :
      MorePurges (.get key compute next) (.get key compute' next')
  | peek (key : CacheKey) {next next' : Option α → CacheScript α ε}
      (hnext : ∀ value, MorePurges (next value) (next' value)) :
      MorePurges (.peek key next) (.peek key next')
  | invalidateClass (cls : ResourceClass) {next next' : Nat → CacheScript α ε}
      (hnext : ∀ count count', MorePurges (next count) (next' count')) :
      MorePurges (.invalidateClass cls next) (.invalidateClass cls next')
  | invalidateAll {next next' : Nat → CacheScript α ε}
      (hnext : ∀ count count', MorePurges (next count) (next' count')) :
      MorePurges (.invalidateAll next) (.invalidateAll next')
  | purge {next next' : Nat → CacheScript α ε}
      (hnext : ∀ count count', MorePurges (next count) (next' count')) :
      MorePurges (.purge next) (.purge next')
  | moveClock (move : Tick → Tick) {next next' : CacheScript α ε} (hnext : MorePurges next next') :
      MorePurges (.moveClock move next) (.moveClock move next')
  /-- One purge more. -/
  | insert {script : CacheScript α ε} {next : Nat → CacheScript α ε}
      (hnext : ∀ count, MorePurges script (next count)) : MorePurges script (.purge next)

/-- Whether the clock is never set back while a script runs. -/
def CacheScript.ClockRises : CacheScript α ε → CacheState α → Prop
  | .done _, _ => True
  | .get key compute next, s =>
      ∀ answer ∈ (AccessCache.machine (ε := ε)).lookup key s,
        match answer with
        | (some value, s) => (next false (.ok value)).ClockRises s
        | (none, s) =>
            compute.ClockRises s ∧ ∀ inner ∈ compute.run AccessCache.machine s,
              (next true inner.result).ClockRises
                (AccessCache.machine.settle key inner.result inner.final)
  | .peek key next, s =>
      ∀ value ∈ (AccessCache.machine (ε := ε)).peek key s, (next value).ClockRises s
  | .invalidateClass cls next, s =>
      ∀ answer ∈ (AccessCache.machine (ε := ε)).invalidateClass cls s,
        (next answer.1).ClockRises answer.2
  | .invalidateAll next, s =>
      ∀ answer ∈ (AccessCache.machine (ε := ε)).invalidateAll s,
        (next answer.1).ClockRises answer.2
  | .purge next, s =>
      let (count, s) := (AccessCache.machine (ε := ε)).purge s
      (next count).ClockRises s
  | .moveClock move next, s =>
      s.now.ms ≤ (move s.now).ms ∧ next.ClockRises { s with now := move s.now }

/-- The clock rises whatever a lookup finds, if it rises in all that may come of it. -/
theorem CacheScript.ClockRises.get {key : CacheKey} {compute : CacheScript α ε}
    {next : Bool → Except ε α → CacheScript α ε} (hcompute : ∀ s, compute.ClockRises s)
    (hnext : ∀ isComputed result s, (next isComputed result).ClockRises s) (s : CacheState α) :
    (CacheScript.get key compute next).ClockRises s := by
  rintro ⟨_ | value, s⟩ -
  · exact ⟨hcompute s, fun _ _ => hnext _ _ _⟩
  · exact hnext _ _ _

/-- Whether something seen is the answer to a lookup, and not a number of dropped entries. -/
def CacheEvent.isLookup : CacheEvent α ε → Bool
  | .got .. | .peeked .. => true
  | .dropped _ => false

/-- The answers to the lookups of a run, in order. -/
def CacheRun.lookups {σ : Type} (run : CacheRun α ε σ) : List (CacheEvent α ε) :=
  run.events.filter CacheEvent.isLookup

@[simp]
theorem CacheRun.lookups_after {σ : Type} (events : List (CacheEvent α ε))
    (run : CacheRun α ε σ) :
    (run.after events).lookups = events.filter CacheEvent.isLookup ++ run.lookups :=
  List.filter_append _ _

/-- Two states of a cache have counted the same, evictions apart. -/
structure SameCounts (s s' : CacheState α) : Prop where
  hits_eq : s'.cache.hits = s.cache.hits
  misses_eq : s'.cache.misses = s.cache.misses
  isMetered_eq : s'.cache.isMetered = s.cache.isMetered
  counter_eq : ∀ name ≠ Metrics.cacheEvictions,
    s'.metrics.counter name = s.metrics.counter name

/-- Two runs do not differ in any lookup: the answers are the same, and whether they were
computed, and so are the hits and misses that were counted. -/
structure SameLookups (run run' : CacheRun α ε (CacheState α)) : Prop where
  lookups_eq : run'.lookups = run.lookups
  result_eq : run'.result = run.result
  counts : SameCounts run.final run'.final

/-! ## What is counted -/

namespace SameCounts

variable {s s' s'' : CacheState α}

theorem refl (s : CacheState α) : SameCounts s s :=
  ⟨rfl, rfl, rfl, fun _ _ => rfl⟩

theorem symm (h : SameCounts s s') : SameCounts s' s :=
  ⟨h.hits_eq.symm, h.misses_eq.symm, h.isMetered_eq.symm,
    fun name hname => (h.counter_eq name hname).symm⟩

theorem trans (h : SameCounts s s') (h' : SameCounts s' s'') : SameCounts s s'' :=
  ⟨h'.hits_eq.trans h.hits_eq, h'.misses_eq.trans h.misses_eq,
    h'.isMetered_eq.trans h.isMetered_eq,
    fun name hname => (h'.counter_eq name hname).trans (h.counter_eq name hname)⟩

/-- Both states count alike. -/
theorem counter_meter (h : SameCounts s s') (counted : String) (amount : UInt64) (name : String)
    (hname : name ≠ Metrics.cacheEvictions) :
    (s'.cache.meter s'.metrics counted amount).counter name =
      (s.cache.meter s.metrics counted amount).counter name := by
  rw [AccessCache.meter, AccessCache.meter, h.isMetered_eq]
  split
  · rw [Metrics.counter_count, Metrics.counter_count]
    split
    · next heq => rw [heq, h.counter_eq name hname]
    · exact h.counter_eq name hname
  · exact h.counter_eq name hname

/-- Dropping entries counts evictions only. -/
theorem answer_retain (s : CacheState α) (keep : CacheKey → CacheSlot α → Bool) :
    SameCounts s (s.answer (s.cache.retain s.metrics keep)).2 := by
  simp only [AccessCache.retain, AccessCache.recordEvictions, CacheState.answer]
  split
  · exact ⟨rfl, rfl, rfl, fun _ _ => rfl⟩
  · refine ⟨rfl, rfl, rfl, fun name hname => ?_⟩
    change (AccessCache.meter _ s.metrics Metrics.cacheEvictions _).counter name = _
    rw [AccessCache.meter]
    split
    · rw [Metrics.counter_count, if_neg hname.symm]
    · rfl

end SameCounts

/-! ## Entries that are served no more -/

theorem Tick.le_add (now : Tick) (d : Duration) : now.ms ≤ (now.add d).ms := by
  have hlt := now.ms.toNat_lt
  rw [UInt64.le_iff_toNat_le, toNat_add]
  simp only [UInt64.size]
  omega

theorem Duration.millis_le {d d' : Duration} (h : d.nanos ≤ d'.nanos) :
    d.millis.toNat ≤ d'.millis.toNat := by
  have hquotient : d.nanos / nanosPerMilli ≤ d'.nanos / nanosPerMilli := Nat.div_le_div_right h
  rw [toNat_millis, toNat_millis]
  omega

/-- No entry expires further ahead than an entry may. -/
structure CacheState.Timely (s : CacheState α) : Prop where
  ttl_le : s.cache.settings.ttl.nanos ≤ s.cache.settings.maxAge.nanos
  expiry_le : ∀ {key : CacheKey} {entry : CacheEntry α}, s.cache.find? key = some entry →
    entry.expiresAt.ms.toNat ≤ s.now.ms.toNat + s.cache.settings.maxAge.millis.toNat

namespace CacheState.Timely

variable {s t : CacheState α}

/-- An entry is live until it expires, and not again afterwards. -/
theorem isLive_eq (h : s.Timely) {key : CacheKey} {entry : CacheEntry α}
    (hentry : s.cache.find? key = some entry) :
    entry.isLive s.now s.cache.settings.maxAge = s.now.isBefore entry.expiresAt := by
  have hexpiry := h.expiry_le hentry
  have hsoon : (s.now.millisUntil entry.expiresAt).toNat ≤
      s.cache.settings.maxAge.millis.toNat := by
    rw [Tick.toNat_millisUntil]
    omega
  rw [CacheEntry.isLive, decide_eq_true hsoon, Bool.and_true]

/-- What is stored now expires no further ahead than an entry may. -/
theorem expiry_store_le (h : s.Timely) (value : α) :
    (CacheEntry.store value s.now s.cache.settings.ttl).expiresAt.ms.toNat ≤
      s.now.ms.toNat + s.cache.settings.maxAge.millis.toNat := by
  have hmillis := Duration.millis_le h.ttl_le
  rw [CacheEntry.store, Tick.toNat_add]
  omega

/-- Entries may go, and the clock may rise. -/
theorem mono (h : s.Timely) (hsettings : t.cache.settings = s.cache.settings)
    (hnow : s.now.ms ≤ t.now.ms)
    (hfind : ∀ {key entry}, t.cache.find? key = some entry → s.cache.find? key = some entry) :
    t.Timely where
  ttl_le := by
    rw [hsettings]
    exact h.ttl_le
  expiry_le hentry := by
    rw [hsettings]
    exact Nat.le_trans (h.expiry_le (hfind hentry)) (Nat.add_le_add_right hnow _)

end CacheState.Timely

/-- What may be left of an entry: all of it, or nothing once it has expired. -/
def LeftOver (now : Tick) (found? kept? : Option (CacheEntry α)) : Prop :=
  kept? = found? ∨ kept? = none ∧ ∀ entry ∈ found?, now.isBefore entry.expiresAt = false

namespace LeftOver

variable {now : Tick} {found? kept? : Option (CacheEntry α)}

/-- What is dropped on one side is dropped on the other. -/
theorem filter (h : LeftOver now found? kept?) (keep : CacheEntry α → Bool) :
    LeftOver now (found?.filter keep) (kept?.filter keep) := by
  rcases h with rfl | ⟨rfl, hexpired⟩
  · exact .inl rfl
  · refine .inr ⟨rfl, fun entry hentry => hexpired entry ?_⟩
    exact (Option.filter_eq_some_iff.mp hentry).1

/-- A purge may drop what has expired. -/
theorem filter_right (h : LeftOver now found? kept?) {keep : CacheEntry α → Bool}
    (hkeep : ∀ entry ∈ found?, now.isBefore entry.expiresAt = true → keep entry = true) :
    LeftOver now found? (kept?.filter keep) := by
  rcases h with rfl | ⟨rfl, hexpired⟩
  · cases kept? with
    | none => exact .inl rfl
    | some entry =>
        rw [Option.filter_some]
        split
        · exact .inl rfl
        · next hdropped =>
          refine .inr ⟨rfl, fun other hother => ?_⟩
          obtain rfl := Option.some.inj hother
          rw [Bool.eq_false_iff]
          exact fun hlive => hdropped (hkeep entry rfl hlive)
  · exact .inr ⟨rfl, hexpired⟩

/-- What has expired stays so while the clock rises. -/
theorem rise (h : LeftOver now found? kept?) {later : Tick} (hlater : now.ms ≤ later.ms) :
    LeftOver later found? kept? := by
  rcases h with rfl | ⟨rfl, hexpired⟩
  · exact .inl rfl
  · refine .inr ⟨rfl, fun entry hentry => ?_⟩
    have hbefore := hexpired entry hentry
    rw [UInt64.le_iff_toNat_le] at hlater
    simp only [Tick.isBefore, decide_eq_false_iff_not] at hbefore ⊢
    omega

end LeftOver

/-! ## A cache and what purges leave of it -/

/-- The second state lacks only entries of the first that have expired. The same keys are being
computed in both. -/
structure Purged (keys : ExtTreeSet CacheKey) (s s' : CacheState α) : Prop extends
    SameCounts s s' where
  timely : s.Timely
  now_eq : s'.now = s.now
  settings_eq : s'.cache.settings = s.cache.settings
  isHeld_eq (key : CacheKey) : s.cache.isHeld key = keys.contains key
  isHeld_eq' (key : CacheKey) : s'.cache.isHeld key = keys.contains key
  leftOver (key : CacheKey) : LeftOver s.now (s.cache.find? key) (s'.cache.find? key)

namespace Purged

variable {keys : ExtTreeSet CacheKey} {s s' : CacheState α}

/-- A new cache lacks nothing. -/
theorem new (name : String) {settings : CacheSettings} (isMetered : Bool) (metrics : Metrics)
    (now : Tick) (httl : settings.ttl.nanos ≤ settings.maxAge.nanos) :
    let start : CacheState α := { cache := { name, settings, isMetered }, metrics, now }
    Purged ∅ start start where
  toSameCounts := .refl _
  timely := ⟨httl, fun hentry => by simp [AccessCache.find?] at hentry⟩
  now_eq := rfl
  settings_eq := rfl
  isHeld_eq key := by simp [AccessCache.isHeld]
  isHeld_eq' key := by simp [AccessCache.isHeld]
  leftOver key := .inl rfl

/-- Nothing that is lacking could be served. -/
theorem peek_eq (h : Purged keys s s') (key : CacheKey) :
    s'.cache.peek key s'.now = s.cache.peek key s.now := by
  rw [AccessCache.peek, AccessCache.peek, h.now_eq, h.settings_eq]
  rcases h.leftOver key with hsame | ⟨hnone, hexpired⟩
  · rw [hsame]
  · rw [hnone]
    cases hentry : s.cache.find? key with
    | none => rfl
    | some entry =>
        have hdead : entry.isLive s.now s.cache.settings.maxAge = false :=
          (h.timely.isLive_eq hentry).trans (hexpired entry hentry)
        rw [Option.filter_some_neg (by simp [hdead]), Option.filter_none]

theorem holdsAny_eq (h : Purged keys s s') (concerned : CacheKey → Bool) :
    s'.cache.holdsAny concerned = s.cache.holdsAny concerned := by
  rw [Bool.eq_iff_iff, AccessCache.holdsAny_eq_true_iff, AccessCache.holdsAny_eq_true_iff]
  simp only [h.isHeld_eq, h.isHeld_eq']

/-- Asking for a key: both states wait, or both serve the same value, or both begin to compute. -/
theorem lookup (h : Purged keys s s') (key : CacheKey) :
    Option.Rel
      (fun a a' => a'.1 = a.1 ∧
        if a.1.isSome then Purged keys a.2 a'.2
        else key ∉ keys ∧ Purged (keys.insert key) a.2 a'.2)
      ((AccessCache.machine (ε := ε)).lookup key s)
      ((AccessCache.machine (ε := ε)).lookup key s') := by
  simp only [AccessCache.machine, h.isHeld_eq, h.isHeld_eq']
  by_cases hheld : keys.contains key = true
  · rw [if_pos hheld, if_pos hheld]
    exact .none
  · rw [if_neg hheld, if_neg hheld]
    cases hserved : s.cache.peek key s.now with
    | some value =>
        rw [AccessCache.lookup_of_peek_eq_some hserved,
          AccessCache.lookup_of_peek_eq_some ((h.peek_eq key).trans hserved)]
        refine .some ⟨rfl, ?_⟩
        exact { h with
          hits_eq := congrArg (· + 1) h.hits_eq
          counter_eq := h.counter_meter _ _
          timely := ⟨h.timely.ttl_le, h.timely.expiry_le⟩ }
    | none =>
        rw [AccessCache.lookup_of_peek_eq_none hserved,
          AccessCache.lookup_of_peek_eq_none ((h.peek_eq key).trans hserved)]
        have hheld' (c : AccessCache α) (hc : ∀ other, c.isHeld other = keys.contains other)
            (other : CacheKey) :
            (c.hold key).isHeld other = (keys.insert key).contains other := by
          rw [AccessCache.isHeld_hold, hc, ExtTreeSet.contains_insert]
          simp [Bool.beq_eq_decide_eq]
        refine .some ⟨rfl, hheld, ?_⟩
        exact { h with
          misses_eq := congrArg (· + 1) h.misses_eq
          counter_eq := h.counter_meter _ _
          timely := h.timely.mono rfl (UInt64.le_refl _) fun hentry =>
            (AccessCache.find?_hold ..).symm.trans hentry
          isHeld_eq := hheld' s.cache h.isHeld_eq
          isHeld_eq' := hheld' s'.cache h.isHeld_eq'
          leftOver := fun other => by
            simpa only [CacheState.answer, AccessCache.find?_hold] using h.leftOver other }

/-- What a computation gives is stored in both states; an error changes no entry. -/
theorem settle {key : CacheKey} (hfree : key ∉ keys) (h : Purged (keys.insert key) s s')
    (result : Except ε α) :
    Purged keys (AccessCache.machine.settle key result s)
      (AccessCache.machine.settle key result s') := by
  have hreleased (c : AccessCache α) (now : Tick)
      (hc : ∀ other, c.isHeld other = (keys.insert key).contains other) (other : CacheKey) :
      (c.settle key now result).isHeld other = keys.contains other := by
    rw [AccessCache.isHeld_settle, hc, ExtTreeSet.contains_insert]
    by_cases heq : key = other
    · subst heq
      simpa [Bool.eq_false_iff] using hfree
    · simp [heq]
  have hfind := AccessCache.find?_settle_ok (ε := ε)
    ((h.isHeld_eq key).trans ExtTreeSet.contains_insert_self) s.now
  have hfind' := AccessCache.find?_settle_ok (ε := ε)
    ((h.isHeld_eq' key).trans ExtTreeSet.contains_insert_self) s'.now
  refine ⟨⟨h.hits_eq, h.misses_eq, h.isMetered_eq, h.counter_eq⟩, ?_, h.now_eq, h.settings_eq,
    hreleased s.cache s.now h.isHeld_eq, hreleased s'.cache s'.now h.isHeld_eq', ?_⟩
  · cases result with
    | ok value =>
        refine ⟨h.timely.ttl_le, fun hentry => ?_⟩
        have hfound := (hfind value _).symm.trans hentry
        split at hfound
        · rw [← Option.some.inj hfound]
          exact h.timely.expiry_store_le value
        · exact h.timely.expiry_le hfound
    | error cause =>
        exact h.timely.mono rfl (UInt64.le_refl _) fun {other _} hentry =>
          (AccessCache.find?_settle_error s.cache key s.now cause other).symm.trans hentry
  · intro other
    cases result with
    | ok value =>
        change LeftOver s.now ((s.cache.settle (ε := ε) key s.now (.ok value)).find? other)
          ((s'.cache.settle (ε := ε) key s'.now (.ok value)).find? other)
        rw [hfind, hfind', h.now_eq, h.settings_eq]
        split
        · exact .inl rfl
        · exact h.leftOver other
    | error cause =>
        change LeftOver s.now ((s.cache.settle key s.now (.error cause)).find? other)
          ((s'.cache.settle key s'.now (.error cause)).find? other)
        rw [AccessCache.find?_settle_error, AccessCache.find?_settle_error]
        exact h.leftOver other

theorem peek (h : Purged keys s s') (key : CacheKey) :
    (AccessCache.machine (ε := ε)).peek key s' = (AccessCache.machine (ε := ε)).peek key s := by
  simp only [AccessCache.machine, h.isHeld_eq, h.isHeld_eq', h.peek_eq]

/-! ### Dropping slots -/

/-- Slots that nobody holds may be dropped on either side, if what is left is left over. -/
theorem drop (h : Purged keys s s') {keep keep' : CacheKey → CacheSlot α → Bool}
    (hheld : ∀ key, (s.cache.retain s.metrics keep).2.1.isHeld key = s.cache.isHeld key)
    (hheld' : ∀ key, (s'.cache.retain s'.metrics keep').2.1.isHeld key = s'.cache.isHeld key)
    (hleft : ∀ key, LeftOver s.now ((s.cache.retain s.metrics keep).2.1.find? key)
      ((s'.cache.retain s'.metrics keep').2.1.find? key)) :
    Purged keys (s.answer (s.cache.retain s.metrics keep)).2
      (s'.answer (s'.cache.retain s'.metrics keep')).2 where
  toSameCounts := ((SameCounts.answer_retain s keep).symm.trans h.toSameCounts).trans
    (.answer_retain s' keep')
  timely := h.timely.mono (AccessCache.settings_retain ..) (UInt64.le_refl _)
    AccessCache.find?_of_find?_retain
  now_eq := h.now_eq
  settings_eq := (AccessCache.settings_retain ..).trans
    (h.settings_eq.trans (AccessCache.settings_retain ..).symm)
  isHeld_eq key := (hheld key).trans (h.isHeld_eq key)
  isHeld_eq' key := (hheld' key).trans (h.isHeld_eq' key)
  leftOver := hleft

/-- Dropping a class waits on both sides or on neither, and leaves what the purges left. -/
theorem invalidateClass (h : Purged keys s s') (cls : ResourceClass) :
    Option.Rel (fun a a' => Purged keys a.2 a'.2)
      ((AccessCache.machine (ε := ε)).invalidateClass cls s)
      ((AccessCache.machine (ε := ε)).invalidateClass cls s') := by
  simp only [AccessCache.machine, h.holdsAny_eq]
  by_cases hwaits : s.cache.holdsAny (·.cls == cls) = true
  · rw [if_pos hwaits, if_pos hwaits]
    exact .none
  · rw [if_neg hwaits, if_neg hwaits]
    -- nothing of the class is held, or else both would wait
    have hfree {key : CacheKey} (hcls : key.cls = cls) : keys.contains key = false := by
      rw [← h.isHeld_eq, Bool.eq_false_iff]
      exact fun hheld => hwaits (AccessCache.holdsAny_eq_true_iff.mpr ⟨key, hheld, by simp [hcls]⟩)
    refine .some (h.drop (fun key => ?_) (fun key => ?_) fun key => ?_)
    · refine (AccessCache.isHeld_invalidateClass s.cache s.metrics cls key).trans ?_
      by_cases hcls : key.cls = cls <;> simp [hcls, h.isHeld_eq, hfree]
    · refine (AccessCache.isHeld_invalidateClass s'.cache s'.metrics cls key).trans ?_
      by_cases hcls : key.cls = cls <;> simp [hcls, h.isHeld_eq', hfree]
    · change LeftOver s.now ((s.cache.invalidateClass s.metrics cls).2.1.find? key)
        ((s'.cache.invalidateClass s'.metrics cls).2.1.find? key)
      rw [AccessCache.find?_invalidateClass, AccessCache.find?_invalidateClass]
      split
      · exact .inl rfl
      · exact h.leftOver key

theorem invalidateAll (h : Purged keys s s') :
    Option.Rel (fun a a' => Purged keys a.2 a'.2)
      ((AccessCache.machine (ε := ε)).invalidateAll s)
      ((AccessCache.machine (ε := ε)).invalidateAll s') := by
  simp only [AccessCache.machine, h.holdsAny_eq]
  by_cases hwaits : s.cache.holdsAny (fun _ => true) = true
  · rw [if_pos hwaits, if_pos hwaits]
    exact .none
  · rw [if_neg hwaits, if_neg hwaits]
    have hfree (key : CacheKey) : keys.contains key = false := by
      rw [← h.isHeld_eq, Bool.eq_false_iff]
      exact fun hheld => hwaits (AccessCache.holdsAny_eq_true_iff.mpr ⟨key, hheld, rfl⟩)
    refine .some (h.drop (fun key => ?_) (fun key => ?_) fun key => ?_)
    · rw [h.isHeld_eq, hfree]
      exact AccessCache.isHeld_invalidateAll s.cache s.metrics key
    · rw [h.isHeld_eq', hfree]
      exact AccessCache.isHeld_invalidateAll s'.cache s'.metrics key
    · exact .inl ((AccessCache.find?_invalidateAll s'.cache s'.metrics key).trans
        (AccessCache.find?_invalidateAll s.cache s.metrics key).symm)

/-- Purging both sides drops from the second what it drops from the first. -/
theorem purge (h : Purged keys s s') :
    Purged keys (s.answer (s.cache.purge s.metrics s.now)).2
      (s'.answer (s'.cache.purge s'.metrics s'.now)).2 := by
  refine h.drop (AccessCache.isHeld_purge s.cache s.metrics s.now)
    (AccessCache.isHeld_purge s'.cache s'.metrics s'.now) fun key => ?_
  change LeftOver s.now ((s.cache.purge s.metrics s.now).2.1.find? key)
    ((s'.cache.purge s'.metrics s'.now).2.1.find? key)
  rw [AccessCache.find?_purge, AccessCache.find?_purge, h.isHeld_eq, h.isHeld_eq', h.now_eq,
    h.settings_eq]
  exact (h.leftOver key).filter _

/-- A purge more only drops what has expired. -/
theorem purge_right (h : Purged keys s s') :
    Purged keys s (s'.answer (s'.cache.purge s'.metrics s'.now)).2 where
  toSameCounts := h.toSameCounts.trans (.answer_retain s' _)
  timely := h.timely
  now_eq := h.now_eq
  settings_eq := (AccessCache.settings_purge ..).trans h.settings_eq
  isHeld_eq := h.isHeld_eq
  isHeld_eq' key := (AccessCache.isHeld_purge ..).trans (h.isHeld_eq' key)
  leftOver key := by
    change LeftOver s.now _ ((s'.cache.purge s'.metrics s'.now).2.1.find? key)
    rw [AccessCache.find?_purge, h.now_eq, h.settings_eq]
    refine (h.leftOver key).filter_right fun entry hentry hlive => ?_
    rw [h.timely.isLive_eq hentry, hlive, Bool.or_true]

theorem moveClock (h : Purged keys s s') {move : Tick → Tick}
    (hrises : s.now.ms ≤ (move s.now).ms) :
    Purged keys { s with now := move s.now } { s' with now := move s'.now } :=
  { h with
    timely := h.timely.mono rfl hrises id
    now_eq := congrArg move h.now_eq
    leftOver := fun key => (h.leftOver key).rise hrises }

end Purged

/-! ## Runs -/

/-- What two runs of a script show of its lookups is the same, and the cache of the second lacks
only entries that have expired. -/
structure RunsAlike (keys : ExtTreeSet CacheKey) (run run' : CacheRun α ε (CacheState α)) :
    Prop where
  lookups_eq : run'.lookups = run.lookups
  result_eq : run'.result = run.result
  final : Purged keys run.final run'.final

namespace RunsAlike

variable {keys : ExtTreeSet CacheKey} {r r' : Option (CacheRun α ε (CacheState α))}

/-- The same lookups may come before. -/
theorem map_after (h : Option.Rel (RunsAlike keys) r r') {events events' : List (CacheEvent α ε)}
    (hevents : events'.filter CacheEvent.isLookup = events.filter CacheEvent.isLookup) :
    Option.Rel (RunsAlike keys) (r.map (.after events)) (r'.map (.after events')) := by
  cases h with
  | none => exact .none
  | some h =>
      refine .some ⟨?_, h.result_eq, h.final⟩
      rw [CacheRun.lookups_after, CacheRun.lookups_after, hevents, h.lookups_eq]

/-- One of the runs may have dropped entries before. -/
theorem dropped_right (h : Option.Rel (RunsAlike keys) r r') (count : Nat) :
    Option.Rel (RunsAlike keys) r (r'.map (.after [.dropped count])) := by
  cases h with
  | none => exact .none
  | some h =>
      refine .some ⟨?_, h.result_eq, h.final⟩
      rw [CacheRun.lookups_after]
      exact h.lookups_eq

end RunsAlike

/-- Continuations of answers that were given agree on agreeing answers, waiting included. -/
theorem rel_bind_of_mem {β γ β' γ' : Type} {R : β → γ → Prop} {R' : β' → γ' → Prop}
    {x : Option β} {y : Option γ} {f : β → Option β'} {g : γ → Option γ'}
    (h : Option.Rel R x y) (hnext : ∀ b ∈ x, ∀ c, R b c → Option.Rel R' (f b) (g c)) :
    Option.Rel R' (x.bind f) (y.bind g) := by
  cases h with
  | none => exact .none
  | some hbc => exact hnext _ rfl _ hbc

/-- Purges that are put into a run change nothing that its lookups show. -/
theorem CacheScript.MorePurges.rel_run {script script' : CacheScript α ε}
    (h : script.MorePurges script') {keys : ExtTreeSet CacheKey} {s s' : CacheState α}
    (hclock : script.ClockRises s) (hstates : Purged keys s s') :
    Option.Rel (RunsAlike keys) (script.run AccessCache.machine s)
      (script'.run AccessCache.machine s') := by
  induction h generalizing keys s s' with
  | done result => exact .some ⟨rfl, rfl, hstates⟩
  | get key hcompute hnext ihcompute ihnext =>
      simp only [run]
      refine rel_bind_of_mem (hstates.lookup key) ?_
      rintro ⟨served, t⟩ hmem ⟨served', t'⟩ ⟨hserved, hanswer⟩
      obtain rfl : served' = served := hserved
      have hclock := hclock _ hmem
      cases served' with
      | some value => exact RunsAlike.map_after (ihnext _ _ hclock hanswer) rfl
      | none =>
          -- the key is being computed in both runs until the computation is settled
          obtain ⟨hfree, hheld⟩ := hanswer
          refine rel_bind_of_mem (ihcompute hclock.1 hheld) ?_
          intro inner hinner inner' halike
          have hsettled := halike.final.settle hfree inner.result
          rw [halike.result_eq]
          refine RunsAlike.map_after (ihnext _ _ (hclock.2 _ hinner) hsettled) ?_
          rw [List.filter_append, List.filter_append]
          exact congrArg (· ++ _) halike.lookups_eq
  | peek key hnext ih =>
      simp only [run, hstates.peek key]
      cases hpeek : AccessCache.machine.peek key s with
      | none => exact .none
      | some value => exact RunsAlike.map_after (ih value (hclock value hpeek) hstates) rfl
  | invalidateClass cls hnext ih =>
      simp only [run]
      refine rel_bind_of_mem (hstates.invalidateClass cls) ?_
      intro answer hmem answer' hdropped
      exact RunsAlike.map_after (ih _ _ (hclock _ hmem) hdropped) rfl
  | invalidateAll hnext ih =>
      simp only [run]
      refine rel_bind_of_mem hstates.invalidateAll ?_
      intro answer hmem answer' hdropped
      exact RunsAlike.map_after (ih _ _ (hclock _ hmem) hdropped) rfl
  | purge hnext ih =>
      simp only [run]
      exact RunsAlike.map_after (ih _ _ hclock hstates.purge) rfl
  | moveClock move hnext ih => exact ih hclock.2 (hstates.moveClock hclock.1)
  | insert hnext ih =>
      simp only [run]
      exact RunsAlike.dropped_right (ih _ hclock hstates.purge_right) _

theorem RunsAlike.sameLookups {keys : ExtTreeSet CacheKey}
    {run run' : CacheRun α ε (CacheState α)} (h : RunsAlike keys run run') :
    SameLookups run run' :=
  ⟨h.lookups_eq, h.result_eq, h.final.toSameCounts⟩

/-- Purging is invisible. A run of a new cache whose entries live no longer than entries may, on
a clock that is never set back, waits for itself with more purges exactly if it does without.
Otherwise every lookup gets the same value or error, computed in the same cases, and hits and
misses are counted alike. -/
theorem AccessCache.sameLookups_of_morePurges (name : String) {settings : CacheSettings}
    (isMetered : Bool) (metrics : Metrics) (now : Tick)
    (httl : settings.ttl.nanos ≤ settings.maxAge.nanos) {script script' : CacheScript α ε}
    (hpurges : script.MorePurges script')
    (hclock : script.ClockRises { cache := { name, settings, isMetered }, metrics, now }) :
    let start : CacheState α := { cache := { name, settings, isMetered }, metrics, now }
    Option.Rel SameLookups (script.run machine start) (script'.run machine start) := by
  intro start
  match script.run machine start, script'.run machine start,
    hpurges.rel_run hclock (.new name isMetered metrics now httl) with
  | _, _, .none => exact .none
  | _, _, .some halike => exact .some halike.sameLookups

/-- A caller whose entry of `a` expires. It is renewed at the second attempt, the first one
fails. At three points, one of them inside a computation, something else is put in. -/
def CacheScript.renewing (putIn : CacheScript Nat Unit → CacheScript Nat Unit) :
    CacheScript Nat Unit :=
  .get ⟨.identity, "a"⟩ (.done (.ok 1)) fun _ _ =>
  .moveClock (·.add (.ofSeconds 3600)) <| putIn <|
  .get ⟨.identity, "b"⟩ (putIn (.peek ⟨.identity, "a"⟩ fun _ => .done (.ok 2))) fun _ _ =>
  .get ⟨.identity, "a"⟩ (.done (.error ())) fun _ _ => putIn <|
  .get ⟨.identity, "a"⟩ (.done (.ok 3)) fun _ result => .done result

/-- The purges drop an entry that would have been kept, and no lookup shows it. -/
theorem AccessCache.sameLookups_of_renewing :
    let purging (rest : CacheScript Nat Unit) : CacheScript Nat Unit := .purge fun _ => rest
    let start : CacheState Nat := { cache := { name := "ids" }, metrics := {}, now := ⟨5⟩ }
    let run := (CacheScript.renewing id).run machine start
    let run' := (CacheScript.renewing purging).run machine start
    Option.Rel SameLookups run run'
      ∧ run.map (·.final.cache.evictions) = some 0
      ∧ run'.map (·.final.cache.evictions) = some 1 := by
  intro purging start run run'
  refine ⟨?_, by decide +kernel, by decide +kernel⟩
  apply sameLookups_of_morePurges
  · decide
  · refine .get _ (.done _) fun _ _ => .moveClock _ (.insert fun _ => ?_)
    refine .get _ (.insert fun _ => .peek _ fun _ => .done _) fun _ _ => ?_
    refine .get _ (.done _) fun _ _ => .insert fun _ => ?_
    exact .get _ (.done _) fun _ _ => .done _
  · apply CacheScript.ClockRises.get
    · exact fun _ => trivial
    · intro _ _ s
      refine ⟨Tick.le_add s.now _, ?_⟩
      apply CacheScript.ClockRises.get
      · exact fun _ _ _ => trivial
      · intro _ _
        apply CacheScript.ClockRises.get
        · exact fun _ => trivial
        · intro _ _
          apply CacheScript.ClockRises.get <;> exact fun _ => by intros; trivial

end ControlPlane
