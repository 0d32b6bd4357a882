/-
# The history of slots and calls

Callers of one cache share its slots, and a slot may be used when it is no longer in the map. The
invariant relates the history of slots and calls to what the sections read. A slot of which nothing
tells that it left is the one in the map, and is not retired. A call that looked a slot up did so
before the slot left. An invalidation that has taken its slots out leaves only slots behind that had
left by then or were created later. And the slots of one key were in the map one after the other.

A section moves one call. What it does to the slots of other calls is little: it may change one of
them or take some out of the map. So most of the invariant is carried from one state to a later one
whatever the section was, and what is left to show of a section is what its own call and its own
slot come to.
-/

import ControlPlane.Proofs.Cache.Callers

namespace ControlPlane

open Std (ExtTreeMap)

variable {α ε : Type}

/-! ## One slot, one call -/

namespace SharedSlot

/-- A slot had left the map by some time. -/
def GoneBy (slot : SharedSlot α) (time : Nat) : Prop :=
  ∃ t i, slot.left = some (t, i) ∧ t ≤ time

/-- A slot left the map before another was created. -/
def LeftBefore (slot other : SharedSlot α) : Prop :=
  ∃ t i, slot.left = some (t, i) ∧ t < other.created

/-- What becomes of a slot in a section of a call: it may leave the map, and it is neither locked
nor freed for another call. -/
structure Becomes (time n : Nat) (slot slot' : SharedSlot α) : Prop where
  key : slot'.key = slot.key
  created : slot'.created = slot.created
  left : slot'.left = slot.left ∨ slot.left = none ∧ slot'.left = some (time, n)
  holder : ∀ m, m ≠ n → slot.holder = some m → slot'.holder = some m

variable {slot slot' other other' : SharedSlot α} {time n : Nat}

theorem Becomes.left_eq_some (h : slot.Becomes time n slot') {t i : Nat}
    (hleft : slot.left = some (t, i)) : slot'.left = some (t, i) := by
  rcases h.left with hsame | ⟨hnone, -⟩
  · rw [hsame, hleft]
  · rw [hnone] at hleft
    cases hleft

theorem Becomes.left_ne_none (h : slot.Becomes time n slot') (hleft : slot.left ≠ none) :
    slot'.left ≠ none := by
  obtain ⟨⟨t, i⟩, hleft⟩ := Option.ne_none_iff_exists'.mp hleft
  simp [h.left_eq_some hleft]

theorem GoneBy.becomes {by' : Nat} (h : slot.GoneBy by') (hbecomes : slot.Becomes time n slot') :
    slot'.GoneBy by' := by
  obtain ⟨t, i, hleft, hle⟩ := h
  exact ⟨t, i, hbecomes.left_eq_some hleft, hle⟩

theorem LeftBefore.becomes (h : slot.LeftBefore other) (hbecomes : slot.Becomes time n slot')
    (hbecomes' : other.Becomes time n other') : slot'.LeftBefore other' := by
  obtain ⟨t, i, hleft, hlt⟩ := h
  exact ⟨t, i, hbecomes.left_eq_some hleft, hbecomes'.created ▸ hlt⟩

end SharedSlot

/-- What becomes of a call: a value that it has been served remains. -/
structure CacheCall.Becomes (c c' : CacheCall α ε) : Prop where
  op : c'.op = c.op
  detached : ∀ d, c.detached = some d → c'.detached = some d
  served : ∀ s author value, c.stage = .served s author value → c' = c

namespace SharedCache

/-! ## The invariant -/

/-- A call that was served a value that it computed itself in a slot. -/
def Authored (w : SharedCache α ε) (s author : Nat) (value : α) : Prop :=
  ∃ c slot begun, w.calls author = some c ∧ w.slots s = some slot ∧ c.op = .get slot.key
    ∧ c.stage = .served s author value ∧ c.begun = some begun ∧ slot.created < begun

/-- A call looked the slot of its key up while the slot was in the map. -/
def LookedUp (w : SharedCache α ε) (c : CacheCall α ε) (s : Nat) : Prop :=
  ∃ slot, w.slots s = some slot ∧ c.op.key? = some slot.key ∧ slot.created ≤ c.found
    ∧ c.started < c.found ∧ c.found < w.time
    ∧ ∀ t i, slot.left = some (t, i) → c.found < t

/-- All of some slots have left the map. -/
def HaveLeft (w : SharedCache α ε) (slots : List Nat) : Prop :=
  ∀ s ∈ slots, ∃ slot, w.slots s = some slot ∧ slot.left ≠ none

/-- What holds of a call at a stage. -/
def StageSound (w : SharedCache α ε) (n : Nat) (c : CacheCall α ε) : CallStage α ε → Prop
  | .seeking | .missed | .failed _ => True
  | .queued s => w.LookedUp c s
  | .computing s =>
      w.LookedUp c s ∧ ∃ slot begun, w.slots s = some slot ∧ slot.holder = some n
        ∧ c.begun = some begun ∧ c.found < begun ∧ begun < w.time
  | .served s author value => w.LookedUp c s ∧ w.Authored s author value
  | .dropping | .sweeping _ => c.detached = none
  | .retiring slots _ | .emptying _ slots _ => w.HaveLeft slots ∧ c.detached.isSome
  | .dropped _ returned =>
      (c.op = .purge ∨ c.detached.isSome) ∧ ∀ d, c.detached = some d → d < returned

structure CallSound (w : SharedCache α ε) (n : Nat) (c : CacheCall α ε) : Prop where
  started : c.started < w.time
  /-- The slots that an invalidation concerns had left by then or came later. -/
  detached : ∀ d, c.detached = some d → d < w.time ∧ ∀ s slot, w.slots s = some slot →
    c.op.invalidates slot.key = true → d < slot.created ∨ slot.GoneBy d
  stage : w.StageSound n c c.stage

structure SlotSound (w : SharedCache α ε) (s : Nat) (slot : SharedSlot α) : Prop where
  created : slot.created < w.time
  inMap : slot.left = none → w.map[slot.key]? = some s
  left : ∀ t i, slot.left = some (t, i) → slot.created < t ∧ t < w.time
    ∧ ∃ c, w.calls i = some c
      ∧ (c.op = .purge ∧ slot.isRetired = true ∧ slot.holder = none
        ∨ c.op.invalidates slot.key = true ∧ c.detached = some t)
  retired : slot.isRetired = true → slot.left ≠ none
  entry : ∀ entry, slot.entry = some entry → w.Authored s slot.author entry.value

structure Sound (w : SharedCache α ε) : Prop where
  map : ∀ key s, w.map[key]? = some s →
    ∃ slot, w.slots s = some slot ∧ slot.key = key ∧ slot.left = none
  slots : ∀ s slot, w.slots s = some slot → w.SlotSound s slot
  calls : ∀ n c, w.calls n = some c → w.CallSound n c
  /-- The slots of one key were in the map one after the other. -/
  apart : ∀ s s' slot slot', s ≠ s' → w.slots s = some slot → w.slots s' = some slot' →
    slot.key = slot'.key → slot.LeftBefore slot' ∨ slot'.LeftBefore slot

/-! ## Later states -/

/-- A state after a section of a call. -/
structure Later (w w' : SharedCache α ε) (n : Nat) : Prop where
  time : w'.time = w.time + 1
  calls : ∀ m c, w.calls m = some c → ∃ c', w'.calls m = some c' ∧ c.Becomes c'
  others : ∀ m, m ≠ n → w'.calls m = w.calls m
  slots : ∀ s slot, w.slots s = some slot →
    ∃ slot', w'.slots s = some slot' ∧ slot.Becomes w.time n slot'
  /-- A slot that was not there has just been created. -/
  fresh : ∀ s slot', w'.slots s = some slot' →
    slot'.created = w.time ∨ ∃ slot, w.slots s = some slot

variable {w w' : SharedCache α ε} {n : Nat}

theorem Later.authored (h : w.Later w' n) {s author : Nat} {value : α}
    (hauthored : w.Authored s author value) : w'.Authored s author value := by
  obtain ⟨c, slot, begun, hcall, hslot, hop, hstage, hbegun, hlt⟩ := hauthored
  obtain ⟨c', hcall', hbecomes⟩ := h.calls author c hcall
  obtain rfl := hbecomes.served s author value hstage
  obtain ⟨slot', hslot', hbecomes'⟩ := h.slots s slot hslot
  exact ⟨c', slot', begun, hcall', hslot', hbecomes'.key ▸ hop, hstage, hbegun,
    hbecomes'.created ▸ hlt⟩

theorem Later.lookedUp (h : w.Later w' n) {c : CacheCall α ε} {s : Nat}
    (hfound : w.LookedUp c s) : w'.LookedUp c s := by
  obtain ⟨slot, hslot, hkey, hcreated, hstarted, hlt, hleft⟩ := hfound
  obtain ⟨slot', hslot', hbecomes⟩ := h.slots s slot hslot
  refine ⟨slot', hslot', hbecomes.key ▸ hkey, hbecomes.created ▸ hcreated, hstarted,
    by rw [h.time]; omega, fun t i hleft' => ?_⟩
  rcases hbecomes.left with hsame | ⟨-, hnew⟩
  · exact hleft t i (hsame ▸ hleft')
  · rw [hnew] at hleft'
    cases hleft'
    exact hlt

theorem Later.haveLeft (h : w.Later w' n) {slots : List Nat} (hslots : w.HaveLeft slots) :
    w'.HaveLeft slots := by
  intro s hs
  obtain ⟨slot, hslot, hleft⟩ := hslots s hs
  obtain ⟨slot', hslot', hbecomes⟩ := h.slots s slot hslot
  exact ⟨slot', hslot', hbecomes.left_ne_none hleft⟩

/-- What an invalidation has taken out of the map stays out. -/
theorem Later.detached (h : w.Later w' n) {op : CacheOp} {d : Nat}
    (hdetached : d < w.time ∧ ∀ s slot, w.slots s = some slot →
      op.invalidates slot.key = true → d < slot.created ∨ slot.GoneBy d) :
    d < w'.time ∧ ∀ s slot, w'.slots s = some slot →
      op.invalidates slot.key = true → d < slot.created ∨ slot.GoneBy d := by
  obtain ⟨hlt, hgone⟩ := hdetached
  refine ⟨by rw [h.time]; omega, fun s slot' hslot' hconcerned => ?_⟩
  rcases h.fresh s slot' hslot' with hcreated | ⟨slot, hslot⟩
  · exact .inl (hcreated ▸ hlt)
  · obtain ⟨other, hother, hbecomes⟩ := h.slots s slot hslot
    obtain rfl := Option.some.inj (hslot'.symm.trans hother)
    rcases hgone s slot hslot (hbecomes.key ▸ hconcerned) with hcreated | hgone
    · exact .inl (hbecomes.created ▸ hcreated)
    · exact .inr (hgone.becomes hbecomes)

/-- A call that does not move goes on standing as it did. -/
theorem Later.stageSound (h : w.Later w' n) {m : Nat} (hm : m ≠ n) {c : CacheCall α ε}
    {stage : CallStage α ε} (hstage : w.StageSound m c stage) : w'.StageSound m c stage := by
  cases stage with
  | seeking | missed | failed => trivial
  | queued s => exact h.lookedUp hstage
  | computing s =>
      obtain ⟨hfound, slot, begun, hslot, hholder, hbegun, hlt, hpast⟩ := hstage
      obtain ⟨slot', hslot', hbecomes⟩ := h.slots s slot hslot
      exact ⟨h.lookedUp hfound, slot', begun, hslot', hbecomes.holder m hm hholder, hbegun, hlt,
        by rw [h.time]; omega⟩
  | served s author value => exact ⟨h.lookedUp hstage.1, h.authored hstage.2⟩
  | dropping | sweeping => exact hstage
  | retiring | emptying => exact ⟨h.haveLeft hstage.1, hstage.2⟩
  | dropped => exact hstage

theorem Later.callSound (h : w.Later w' n) {m : Nat} (hm : m ≠ n) {c : CacheCall α ε}
    (hsound : w.CallSound m c) : w'.CallSound m c where
  started := by rw [h.time]; exact Nat.lt_succ_of_lt hsound.started
  detached d hd := h.detached (hsound.detached d hd)
  stage := h.stageSound hm hsound.stage

/-- A call that moves without taking slots out of the map has to stand at its new stage. -/
theorem Later.moved (h : w.Later w' n) {c c' : CacheCall α ε} (hsound : w.CallSound n c)
    (hop : c'.op = c.op) (hstarted : c'.started = c.started) (hdetached : c'.detached = c.detached)
    (hstage : w'.StageSound n c' c'.stage) : w'.CallSound n c' where
  started := by rw [h.time, hstarted]; exact Nat.lt_succ_of_lt hsound.started
  detached d hd := by
    rw [hop]
    exact h.detached (hsound.detached d (hdetached ▸ hd))
  stage := hstage

/-- What a slot is after a section that does not take it out of the map. -/
structure Stays (w' : SharedCache α ε) (n s : Nat) (slot slot' : SharedSlot α) : Prop where
  key : slot'.key = slot.key
  created : slot'.created = slot.created
  left : slot'.left = slot.left
  holder : ∀ m, m ≠ n → slot.holder = some m → slot'.holder = some m
  retired : slot.isRetired = true → slot'.isRetired = true
  /-- A slot that is newly retired has left the map, and one that was retired is not locked. -/
  sound : (slot'.isRetired = true → slot.isRetired = true ∨ slot.left ≠ none)
    ∧ (slot.isRetired = true → slot.holder = none → slot'.holder = none)
  entry : slot'.entry = slot.entry ∧ slot'.author = slot.author
    ∨ ∀ entry, slot'.entry = some entry → w'.Authored s slot'.author entry.value

theorem Stays.refl (w' : SharedCache α ε) (n s : Nat) (slot : SharedSlot α) :
    w'.Stays n s slot slot :=
  ⟨rfl, rfl, rfl, fun _ _ => id, id, ⟨.inl, fun _ => id⟩, .inl ⟨rfl, rfl⟩⟩

theorem Stays.becomes {s : Nat} {slot slot' : SharedSlot α} (h : w'.Stays n s slot slot')
    (time : Nat) : slot.Becomes time n slot' :=
  ⟨h.key, h.created, .inl h.left, h.holder⟩

/-- Two states have the same slots, as far as one relation tells. -/
def SlotsAlike (w w' : SharedCache α ε) (related : Nat → SharedSlot α → SharedSlot α → Prop) :
    Prop :=
  ∀ s, Option.Rel (related s) (w.slots s) (w'.slots s)

section

variable {related : Nat → SharedSlot α → SharedSlot α → Prop} {s : Nat}

theorem SlotsAlike.exists_after (h : w.SlotsAlike w' related) {slot : SharedSlot α}
    (hslot : w.slots s = some slot) : ∃ slot', w'.slots s = some slot' ∧ related s slot slot' := by
  have hrel := h s
  rw [hslot] at hrel
  generalize w'.slots s = after at hrel ⊢
  cases hrel with
  | some hrelated => exact ⟨_, rfl, hrelated⟩

theorem SlotsAlike.exists_before (h : w.SlotsAlike w' related) {slot' : SharedSlot α}
    (hslot' : w'.slots s = some slot') : ∃ slot, w.slots s = some slot ∧ related s slot slot' := by
  have hrel := h s
  rw [hslot'] at hrel
  generalize w.slots s = before at hrel ⊢
  cases hrel with
  | some hrelated => exact ⟨_, rfl, hrelated⟩

theorem slotsAlike_of_eq (hslots : w'.slots = w.slots) (hrefl : ∀ s slot, related s slot slot) :
    w.SlotsAlike w' related := by
  intro s
  rw [hslots]
  cases w.slots s with
  | none => exact .none
  | some slot => exact .some (hrefl s slot)

theorem slotsAlike_of_update {slot slot' : SharedSlot α} (hslot : w.slots s = some slot)
    (hslots : w'.slots = Function.update w.slots s (some slot'))
    (hrefl : ∀ s slot, related s slot slot) (hrelated : related s slot slot') :
    w.SlotsAlike w' related := by
  intro other
  rw [hslots]
  by_cases heq : other = s
  · subst heq
    rw [hslot, Function.update_self]
    exact .some hrelated
  · rw [Function.update_of_ne heq]
    cases w.slots other with
    | none => exact .none
    | some slot => exact .some (hrefl other slot)

end

theorem exists_becomes_of_update {c' : CacheCall α ε}
    (hcalls : w'.calls = Function.update w.calls n (some c'))
    (hbecomes : ∀ c, w.calls n = some c → c.Becomes c') {m : Nat} {c : CacheCall α ε}
    (hcall : w.calls m = some c) : ∃ c', w'.calls m = some c' ∧ c.Becomes c' := by
  rw [hcalls]
  by_cases hm : m = n
  · subst hm
    exact ⟨c', Function.update_self .., hbecomes c hcall⟩
  · exact ⟨c, by rw [Function.update_of_ne hm, hcall], rfl, fun _ => id, fun _ _ _ _ => rfl⟩

/-- A section of a call that creates no slot leads to a later state. -/
theorem later_of_slotsAlike {c' : CacheCall α ε} (htime : w'.time = w.time + 1)
    (hcalls : w'.calls = Function.update w.calls n (some c'))
    (hbecomes : ∀ c, w.calls n = some c → c.Becomes c')
    (hslots : w.SlotsAlike w' fun _ => SharedSlot.Becomes w.time n) : w.Later w' n where
  time := htime
  calls m c hcall := exists_becomes_of_update hcalls hbecomes hcall
  others m hm := by rw [hcalls, Function.update_of_ne hm]
  slots s slot hslot := hslots.exists_after hslot
  fresh s slot' hslot' := by
    obtain ⟨slot, hslot, -⟩ := hslots.exists_before hslot'
    exact .inr ⟨slot, hslot⟩

/-- A section of a call that creates a slot leads to a later state. -/
theorem later_of_create {c' : CacheCall α ε} {s : Nat} {slot' : SharedSlot α}
    (htime : w'.time = w.time + 1) (hcalls : w'.calls = Function.update w.calls n (some c'))
    (hbecomes : ∀ c, w.calls n = some c → c.Becomes c') (hfresh : w.slots s = none)
    (hcreated : slot'.created = w.time)
    (hslots : w'.slots = Function.update w.slots s (some slot')) : w.Later w' n where
  time := htime
  calls m c hcall := exists_becomes_of_update hcalls hbecomes hcall
  others m hm := by rw [hcalls, Function.update_of_ne hm]
  slots other slot hslot := by
    have hne : other ≠ s := by
      rintro rfl
      rw [hfresh] at hslot
      cases hslot
    exact ⟨slot, by rw [hslots, Function.update_of_ne hne, hslot], rfl, rfl, .inl rfl,
      fun _ _ => id⟩
  fresh other slot hslot := by
    rw [hslots] at hslot
    by_cases hother : other = s
    · subst hother
      rw [Function.update_self] at hslot
      obtain rfl := Option.some.inj hslot
      exact .inl hcreated
    · exact .inr ⟨slot, by rwa [Function.update_of_ne hother] at hslot⟩

/-- Calls stand if the one that moved does. -/
theorem Sound.calls_of_later (h : w.Sound) (hlater : w.Later w' n) {c' : CacheCall α ε}
    (hcall' : w'.calls n = some c') (hmoved : w'.CallSound n c') :
    ∀ m c, w'.calls m = some c → w'.CallSound m c := by
  intro m c hcall
  by_cases hm : m = n
  · subst hm
    obtain rfl := Option.some.inj (hcall'.symm.trans hcall)
    exact hmoved
  · rw [hlater.others m hm] at hcall
    exact hlater.callSound hm (h.calls m c hcall)

/-- Slots stay apart while no slot is created. -/
theorem Sound.apart_of_slotsAlike (h : w.Sound) {time : Nat}
    (hslots : w.SlotsAlike w' fun _ => SharedSlot.Becomes time n) :
    ∀ s s' slot slot', s ≠ s' → w'.slots s = some slot → w'.slots s' = some slot' →
      slot.key = slot'.key → slot.LeftBefore slot' ∨ slot'.LeftBefore slot := by
  intro s s' after after' hne hslot hslot' hkey
  obtain ⟨slot, hbefore, hbecomes⟩ := hslots.exists_before hslot
  obtain ⟨slot', hbefore', hbecomes'⟩ := hslots.exists_before hslot'
  have hkeys : slot.key = slot'.key := by rw [← hbecomes.key, ← hbecomes'.key, hkey]
  rcases h.apart s s' slot slot' hne hbefore hbefore' hkeys with hleft | hleft
  · exact .inl (hleft.becomes hbecomes hbecomes')
  · exact .inr (hleft.becomes hbecomes' hbecomes)

/-- A slot that stays in the map, or out of it, stays sound. -/
theorem SlotSound.of_stays {s : Nat} {slot slot' : SharedSlot α} (h : w.SlotSound s slot)
    (hlater : w.Later w' n)
    (hmap : w.map[slot.key]? = some s → w'.map[slot.key]? = some s)
    (hstays : w'.Stays n s slot slot') : w'.SlotSound s slot' where
  created := by rw [hstays.created, hlater.time]; exact Nat.lt_succ_of_lt h.created
  inMap hleft := by
    rw [hstays.key]
    exact hmap (h.inMap (hstays.left ▸ hleft))
  left t i hleft := by
    rw [hstays.left] at hleft
    obtain ⟨hcreated, hlt, c, hcall, hcause⟩ := h.left t i hleft
    obtain ⟨c', hcall', hbecomes⟩ := hlater.calls i c hcall
    refine ⟨hstays.created ▸ hcreated, by rw [hlater.time]; omega, c', hcall', ?_⟩
    rcases hcause with ⟨hop, hretired, hholder⟩ | ⟨hconcerned, hdetached⟩
    · exact .inl ⟨hbecomes.op.trans hop, hstays.retired hretired,
        hstays.sound.2 hretired hholder⟩
    · refine .inr ⟨?_, hbecomes.detached t hdetached⟩
      rw [hbecomes.op, hstays.key]
      exact hconcerned
  retired hretired := by
    rw [hstays.left]
    rcases hstays.sound.1 hretired with hbefore | hleft
    · exact h.retired hbefore
    · exact hleft
  entry entry hentry := by
    rcases hstays.entry with ⟨hsame, hauthor⟩ | hnew
    · rw [hauthor]
      exact hlater.authored (h.entry entry (hsame ▸ hentry))
    · exact hnew entry hentry

/-- A section that takes no slot out of the map and puts none into it keeps the invariant. -/
theorem Sound.of_stays (h : w.Sound) {c c' : CacheCall α ε} (hcall : w.calls n = some c)
    (hunserved : ∀ s author value, c.stage ≠ .served s author value)
    (hop : c'.op = c.op) (hstarted : c'.started = c.started) (hdetached : c'.detached = c.detached)
    (htime : w'.time = w.time + 1) (hmap : w'.map = w.map)
    (hcalls : w'.calls = Function.update w.calls n (some c'))
    (hslots : w.SlotsAlike w' (w'.Stays n))
    (hstage : w.Later w' n → w'.StageSound n c' c'.stage) : w'.Sound := by
  have halike : w.SlotsAlike w' fun _ => SharedSlot.Becomes w.time n := fun s => by
    have hrel := hslots s
    generalize w.slots s = before, w'.slots s = after at hrel ⊢
    cases hrel with
    | none => exact .none
    | some hstays => exact .some (hstays.becomes w.time)
  have hbecomes (other : CacheCall α ε) (hother : w.calls n = some other) : other.Becomes c' := by
    obtain rfl := Option.some.inj (hcall.symm.trans hother)
    exact ⟨hop, fun d hd => hdetached.trans hd, fun s author value hserved =>
      absurd hserved (hunserved s author value)⟩
  have hlater := later_of_slotsAlike htime hcalls hbecomes halike
  exact {
    map := fun key s hkey => by
      obtain ⟨slot, hslot, hkey', hleft⟩ := h.map key s (hmap ▸ hkey)
      obtain ⟨slot', hslot', hstays⟩ := hslots.exists_after hslot
      exact ⟨slot', hslot', hstays.key.trans hkey', hstays.left.trans hleft⟩
    slots := fun s slot' hslot' => by
      obtain ⟨slot, hslot, hstays⟩ := hslots.exists_before hslot'
      exact (h.slots s slot hslot).of_stays hlater (by rw [hmap]; exact id) hstays
    calls := h.calls_of_later hlater (by rw [hcalls, Function.update_self])
      (hlater.moved (h.calls n c hcall) hop hstarted hdetached (hstage hlater))
    apart := h.apart_of_slotsAlike halike }

end SharedCache

end ControlPlane
