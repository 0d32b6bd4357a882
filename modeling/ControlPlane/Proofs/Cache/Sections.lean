/-
# The sections of calls keep the invariant

Each section of a call is shown to keep the invariant. Sections that only move their call and those
that change a slot without moving it are one argument each, and so are a slot that is created and
slots that are taken out of the map. Whatever callers of a new cache bring about satisfies the
invariant then.
-/

import ControlPlane.Proofs.Cache.History

namespace ControlPlane

open Std (ExtTreeMap)

namespace SharedCache

variable {α ε : Type} {w w' : SharedCache α ε} {n : Nat}

/-! ## Sections -/

section

variable {c : CacheCall α ε} {op : CacheOp} {key : CacheKey} {s dropped : Nat}
  {slot : SharedSlot α} {slots : List Nat} {now : Tick} {value : α}

theorem At.sound {stage : CallStage α ε} (h : w.At n c op stage) (hsound : w.Sound) :
    w.CallSound n c ∧ w.StageSound n c stage := by
  have hcall := hsound.calls n c h.call
  have hstage := hcall.stage
  rw [h.stage] at hstage
  exact ⟨hcall, hstage⟩

/-- The slots in the map are not retired. -/
theorem Sound.not_retired (h : w.Sound) (hslot : w.map[key]? = some s) :
    ∃ slot, w.slots s = some slot ∧ slot.key = key ∧ slot.isRetired = false := by
  obtain ⟨slot, hslot', hkey, hleft⟩ := h.map key s hslot
  refine ⟨slot, hslot', hkey, ?_⟩
  rw [← Bool.not_eq_true]
  exact fun hretired => (h.slots s slot hslot').retired hretired hleft

/-- A section that only moves its call keeps the invariant. -/
theorem Sound.of_put (h : w.Sound) {c' : CacheCall α ε} {stage : CallStage α ε}
    (hat : w.At n c op stage) (hunserved : ∀ s author value, stage ≠ .served s author value)
    (hcalls : w'.calls = Function.update w.calls n (some c')) (hslots : w'.slots = w.slots)
    (hop : c'.op = c.op) (hstarted : c'.started = c.started) (hdetached : c'.detached = c.detached)
    (htime : w'.time = w.time + 1) (hmap : w'.map = w.map)
    (hstage : w.Later w' n → w'.StageSound n c' c'.stage) : w'.Sound :=
  h.of_stays hat.call (hat.stage ▸ hunserved) hop hstarted hdetached htime hmap hcalls
    (slotsAlike_of_eq hslots (Stays.refl w' n)) hstage

/-- A section that changes one slot without moving it keeps the invariant. -/
theorem Sound.of_setSlot (h : w.Sound) {c' : CacheCall α ε} {stage : CallStage α ε}
    {slot' : SharedSlot α} (hat : w.At n c op stage)
    (hunserved : ∀ s author value, stage ≠ .served s author value)
    (hcalls : w'.calls = Function.update w.calls n (some c')) (hslot : w.slots s = some slot)
    (hslots : w'.slots = Function.update w.slots s (some slot'))
    (hop : c'.op = c.op) (hstarted : c'.started = c.started) (hdetached : c'.detached = c.detached)
    (htime : w'.time = w.time + 1) (hmap : w'.map = w.map)
    (hstays : w'.Stays n s slot slot')
    (hstage : w.Later w' n → w'.StageSound n c' c'.stage) : w'.Sound :=
  h.of_stays hat.call (hat.stage ▸ hunserved) hop hstarted hdetached htime hmap hcalls
    (slotsAlike_of_update hslot hslots (Stays.refl w' n) hstays) hstage

/-- A value that may be served from a slot was computed by the author of its entry. -/
theorem Sound.authored_of_live? (h : w.Sound) (hslot : w.slots s = some slot) {maxAge : Duration}
    (hlive : slot.live? now maxAge = some value) : w.Authored s slot.author value := by
  obtain ⟨entry, hentry, rfl⟩ := Option.map_eq_some_iff.mp hlive
  exact (h.slots s slot hslot).entry entry (Option.filter_eq_some_iff.mp hentry).1

theorem Sound.start (h : w.Sound) (op : CacheOp) (hfresh : w.calls n = none) :
    (w.put n { op, stage := op.firstStage, started := w.time }).Sound := by
  have hlater : w.Later (w.put n { op, stage := op.firstStage, started := w.time }) n := by
    refine later_of_slotsAlike rfl rfl (fun c hcall => ?_)
      (slotsAlike_of_eq rfl fun s slot => ⟨rfl, rfl, .inl rfl, fun _ _ => id⟩)
    rw [hfresh] at hcall
    cases hcall
  exact {
    map := h.map
    slots := fun s slot hslot =>
      (h.slots s slot hslot).of_stays hlater id (Stays.refl _ n s slot)
    calls := by
      refine h.calls_of_later hlater (calls_put ..) ⟨Nat.lt_succ_self _, nofun, ?_⟩
      cases op with
      | get | peek => trivial
      | invalidateClass | invalidateAll | purge => rfl
    apart := h.apart }

theorem Sound.find (h : w.Sound) (hat : w.At n c op .seeking) (hkey : op.key? = some key)
    (hslot : w.map[key]? = some s) :
    (w.put n { c with stage := .queued s, found := w.time }).Sound := by
  obtain ⟨hcall, -⟩ := hat.sound h
  obtain ⟨slot, hslot', rfl, hleft⟩ := h.map key s hslot
  refine h.of_put hat nofun rfl rfl rfl rfl rfl rfl rfl fun _ => ?_
  refine ⟨slot, hslot', by rw [← hkey, ← hat.op], Nat.le_of_lt (h.slots s slot hslot').created,
    hcall.started, Nat.lt_succ_self _, fun t i hleft' => ?_⟩
  rw [hleft] at hleft'
  cases hleft'

theorem Sound.hit (h : w.Sound) (hat : w.At n c (.get key) (.queued s)) (hfree : w.Free s slot)
    (hlive : slot.live? now w.settings.maxAge = some value) :
    (put { w with hits := w.hits + 1 } n
      { c with stage := .served s slot.author value }).Sound := by
  obtain ⟨-, hfound⟩ := hat.sound h
  refine h.of_put hat nofun rfl rfl rfl rfl rfl rfl rfl fun hlater => ?_
  exact ⟨hlater.lookedUp hfound, hlater.authored (h.authored_of_live? hfree.found hlive)⟩

theorem Sound.see (h : w.Sound) (hat : w.At n c (.peek key) (.queued s)) (hfree : w.Free s slot)
    (hlive : slot.live? now w.settings.maxAge = some value) :
    (w.put n { c with stage := .served s slot.author value }).Sound := by
  obtain ⟨-, hfound⟩ := hat.sound h
  refine h.of_put hat nofun rfl rfl rfl rfl rfl rfl rfl fun hlater => ?_
  exact ⟨hlater.lookedUp hfound, hlater.authored (h.authored_of_live? hfree.found hlive)⟩

theorem Sound.begin (h : w.Sound) (hat : w.At n c (.get key) (.queued s)) (hfree : w.Free s slot)
    (hretired : slot.isRetired = false) :
    ((setSlot { w with misses := w.misses + 1 } s { slot with holder := some n }).put n
      { c with stage := .computing s, begun := some w.time }).Sound := by
  obtain ⟨-, hfound⟩ := hat.sound h
  have hlt : c.found < w.time := by
    obtain ⟨_, -, -, -, -, hlt, -⟩ := hfound
    exact hlt
  refine h.of_setSlot hat nofun rfl hfree.found rfl rfl rfl rfl rfl rfl ?_ fun hlater => ?_
  · refine ⟨rfl, rfl, rfl, fun m _ hholder => ?_, id, ⟨.inl, fun hretired' => ?_⟩, .inl ⟨rfl, rfl⟩⟩
    · rw [hfree.holder] at hholder
      cases hholder
    · rw [hretired] at hretired'
      cases hretired'
  · exact ⟨hlater.lookedUp hfound, _, w.time, Function.update_self .., rfl, rfl, hlt,
      Nat.lt_succ_self _⟩

/-- The slot of a computation is locked for the call that computes. -/
theorem StageSound.holder (h : w.StageSound n c (.computing s)) (hslot : w.slots s = some slot) :
    slot.holder = some n := by
  obtain ⟨-, slot', -, hslot', hholder, -⟩ := h
  obtain rfl := Option.some.inj (hslot.symm.trans hslot')
  exact hholder

theorem Sound.store (h : w.Sound) (hat : w.At n c (.get key) (.computing s))
    (hslot : w.slots s = some slot) (now : Tick) (value : α) :
    ((w.setSlot s
        { slot with
          holder := none
          author := n
          entry := some (.store value now w.settings.ttl) }).put n
      { c with stage := .served s n value }).Sound := by
  obtain ⟨-, hstage⟩ := hat.sound h
  have hholder := hstage.holder hslot
  obtain ⟨hfound, -, begun, -, -, hbegun, hlt, -⟩ := hstage
  have hauthored : Authored ((w.setSlot s
        { slot with
          holder := none
          author := n
          entry := some (.store value now w.settings.ttl) }).put n
      { c with stage := .served s n value }) s n value := by
    obtain ⟨slot', hslot', hkey, hcreated, -⟩ := hfound
    obtain rfl := Option.some.inj (hslot.symm.trans hslot')
    rw [hat.op] at hkey
    obtain rfl := Option.some.inj hkey
    exact ⟨_, _, begun, Function.update_self .., Function.update_self .., hat.op, rfl, hbegun,
      Nat.lt_of_le_of_lt hcreated hlt⟩
  refine h.of_setSlot hat nofun rfl hslot rfl rfl rfl rfl rfl rfl ?_ fun hlater =>
    ⟨hlater.lookedUp hfound, hauthored⟩
  refine ⟨rfl, rfl, rfl, fun m hm hholder' => ?_, id, ⟨.inl, fun _ _ => rfl⟩, .inr ?_⟩
  · rw [hholder] at hholder'
    exact absurd (Option.some.inj hholder').symm hm
  · rintro entry ⟨⟩
    exact hauthored

theorem Sound.fail (h : w.Sound) (hat : w.At n c (.get key) (.computing s))
    (hslot : w.slots s = some slot) (cause : ε) :
    ((w.setSlot s { slot with holder := none }).put n { c with stage := .failed cause }).Sound := by
  have hholder := (hat.sound h).2.holder hslot
  refine h.of_setSlot hat nofun rfl hslot rfl rfl rfl rfl rfl rfl ?_ fun _ => trivial
  refine ⟨rfl, rfl, rfl, fun m hm hholder' => ?_, id, ⟨.inl, fun _ _ => rfl⟩, .inl ⟨rfl, rfl⟩⟩
  rw [hholder] at hholder'
  exact absurd (Option.some.inj hholder').symm hm

theorem Sound.retire (h : w.Sound) (hat : w.At n c op (.retiring slots dropped)) (hmem : s ∈ slots)
    (hslot : w.slots s = some slot) :
    ((w.setSlot s { slot with isRetired := true }).put n
      { c with stage := .emptying s (slots.erase s) dropped }).Sound := by
  obtain ⟨-, hleft, hdetached⟩ := hat.sound h
  refine h.of_setSlot hat nofun rfl hslot rfl rfl rfl rfl rfl rfl ?_ fun hlater => ?_
  · refine ⟨rfl, rfl, rfl, fun _ _ => id, fun _ => rfl, ⟨fun _ => .inr ?_, fun _ => id⟩,
      .inl ⟨rfl, rfl⟩⟩
    obtain ⟨slot', hslot', hleft'⟩ := hleft s hmem
    obtain rfl := Option.some.inj (hslot.symm.trans hslot')
    exact hleft'
  · exact ⟨hlater.haveLeft fun s' hs' => hleft s' (List.mem_of_mem_erase hs'), hdetached⟩

theorem Sound.empty (h : w.Sound) (hat : w.At n c op (.emptying s slots dropped))
    (hfree : w.Free s slot) (count : Nat) :
    ((w.setSlot s { slot with entry := none }).put n
      { c with stage := .retiring slots count }).Sound := by
  obtain ⟨-, hleft, hdetached⟩ := hat.sound h
  refine h.of_setSlot hat nofun rfl hfree.found rfl rfl rfl rfl rfl rfl ?_ fun hlater =>
    ⟨hlater.haveLeft hleft, hdetached⟩
  exact ⟨rfl, rfl, rfl, fun _ _ => id, id, ⟨.inl, fun _ => id⟩, .inr nofun⟩

theorem Sound.finish (h : w.Sound) (hat : w.At n c op (.retiring slots dropped)) :
    ((w.recordEvictions dropped).put n
      { c with stage := .dropped dropped w.time }).Sound := by
  obtain ⟨hcall, -, hdetached⟩ := hat.sound h
  exact h.of_put hat nofun rfl rfl rfl rfl rfl rfl rfl fun _ =>
    ⟨.inr hdetached, fun d hd => (hcall.detached d hd).1⟩

/-- All slots of a key that has none in the map have left it. -/
theorem Sound.exists_left (h : w.Sound) (hnone : w.map[key]? = none) (hslot : w.slots s = some slot)
    (hkey : slot.key = key) : ∃ t i, slot.left = some (t, i) ∧ t < w.time := by
  have hsound := h.slots s slot hslot
  cases hleft : slot.left with
  | none =>
      have hinMap := hsound.inMap hleft
      rw [hkey, hnone] at hinMap
      cases hinMap
  | some left => exact ⟨left.1, left.2, rfl, (hsound.left left.1 left.2 hleft).2.1⟩

/-- A slot that is created for a key follows all slots that the key had. -/
theorem Sound.of_create (h : w.Sound) {c' : CacheCall α ε} (hat : w.At n c op .seeking)
    (hnone : w.map[key]? = none) (hfresh : w.slots s = none)
    (hcalls : w'.calls = Function.update w.calls n (some c'))
    (hslots : w'.slots = Function.update w.slots s (some { key, created := w.time }))
    (hmap : w'.map = w.map.insert key s)
    (hop : c'.op = c.op) (hstarted : c'.started = c.started) (hdetached : c'.detached = c.detached)
    (htime : w'.time = w.time + 1)
    (hstage : w'.StageSound n c' c'.stage) : w'.Sound := by
  have hlater : w.Later w' n := by
    refine later_of_create htime hcalls (fun other hother => ?_) hfresh rfl hslots
    obtain rfl := Option.some.inj (hat.call.symm.trans hother)
    refine ⟨hop, fun d hd => hdetached.trans hd, fun s author value hserved => ?_⟩
    rw [hat.stage] at hserved
    cases hserved
  have hnew : w'.slots s = some { key, created := w.time } := by rw [hslots, Function.update_self]
  have hbefore {other : Nat} {slot : SharedSlot α} (hother : other ≠ s)
      (hslot : w'.slots other = some slot) : w.slots other = some slot := by
    rwa [hslots, Function.update_of_ne hother] at hslot
  have hafter {other : Nat} {slot : SharedSlot α} (hslot : w.slots other = some slot) :
      w'.slots other = some slot := by
    have hne : other ≠ s := by
      rintro rfl
      rw [hfresh] at hslot
      cases hslot
    rw [hslots, Function.update_of_ne hne, hslot]
  exact {
    map := fun key' s' hkey' => by
      rw [hmap, getElem?_insert_eq_ite] at hkey'
      split at hkey'
      · next heq =>
        obtain rfl := Option.some.inj hkey'
        exact ⟨_, hnew, heq, rfl⟩
      · obtain ⟨slot, hslot, hrest⟩ := h.map key' s' hkey'
        exact ⟨slot, hafter hslot, hrest⟩
    slots := fun other slot hslot => by
      by_cases hother : other = s
      · subst hother
        obtain rfl := Option.some.inj (hnew.symm.trans hslot)
        refine ⟨by rw [htime]; exact Nat.lt_succ_self _, fun _ => ?_, nofun, nofun, nofun⟩
        rw [hmap, ExtTreeMap.getElem?_insert_self]
      · refine (h.slots other slot (hbefore hother hslot)).of_stays hlater (fun hinMap => ?_)
          (Stays.refl ..)
        have hne : key ≠ slot.key := by
          intro heq
          rw [← heq, hnone] at hinMap
          cases hinMap
        rwa [hmap, getElem?_insert_eq_ite, if_neg hne]
    calls := h.calls_of_later hlater (by rw [hcalls, Function.update_self])
      (hlater.moved (hat.sound h).1 hop hstarted hdetached hstage)
    apart := fun s₁ s₂ slot₁ slot₂ hapart hslot₁ hslot₂ hkeys => by
      by_cases h₁ : s₁ = s
      · subst h₁
        obtain rfl := Option.some.inj (hnew.symm.trans hslot₁)
        exact .inr (h.exists_left hnone (hbefore (Ne.symm hapart) hslot₂) hkeys.symm)
      · by_cases h₂ : s₂ = s
        · subst h₂
          obtain rfl := Option.some.inj (hnew.symm.trans hslot₂)
          exact .inl (h.exists_left hnone (hbefore h₁ hslot₁) hkeys)
        · exact h.apart s₁ s₂ slot₁ slot₂ hapart (hbefore h₁ hslot₁) (hbefore h₂ hslot₂) hkeys }

theorem Sound.create (h : w.Sound) (hat : w.At n c (.get key) .seeking)
    (hnone : w.map[key]? = none) (hfresh : w.slots s = none) :
    ((setSlot { w with map := w.map.insert key s } s { key, created := w.time }).put n
      { c with stage := .queued s, found := w.time }).Sound := by
  refine h.of_create hat hnone hfresh rfl rfl rfl rfl rfl rfl rfl ?_
  refine ⟨_, Function.update_self .., congrArg CacheOp.key? hat.op, Nat.le_refl _,
    (hat.sound h).1.started, Nat.lt_succ_self _, nofun⟩

variable {gone : CacheKey → Nat → Bool} {retire : Bool}

/-- A slot either leaves the map or is as it was. -/
theorem Sound.leave_cases (h : w.Sound) (hslot : w.slots s = some slot) (n : Nat)
    (gone : CacheKey → Nat → Bool) (retire : Bool) :
    (w.map[slot.key]? = some s ∧ gone slot.key s = true ∧ slot.left = none
        ∧ w.leave n gone retire s slot =
          { slot with left := some (w.time, n), isRetired := slot.isRetired || retire })
      ∨ (w.map[slot.key]? = some s → gone slot.key s = false)
        ∧ w.leave n gone retire s slot = slot := by
  by_cases hgone : w.map[slot.key]? = some s ∧ gone slot.key s = true
  · obtain ⟨slot', hslot', -, hleft⟩ := h.map slot.key s hgone.1
    obtain rfl := Option.some.inj (hslot.symm.trans hslot')
    exact .inl ⟨hgone.1, hgone.2, hleft, if_pos hgone⟩
  · exact .inr ⟨fun hmap => by simpa [hmap] using hgone, if_neg hgone⟩

theorem Sound.slotsAlike_detach (h : w.Sound) (n : Nat) (gone : CacheKey → Nat → Bool)
    (retire : Bool) :
    w.SlotsAlike (w.detach n gone retire) fun _ => SharedSlot.Becomes w.time n := by
  intro s
  change Option.Rel _ (w.slots s) ((w.slots s).map (w.leave n gone retire s))
  cases hslot : w.slots s with
  | none => exact .none
  | some slot =>
      refine .some ?_
      rcases h.leave_cases hslot n gone retire with ⟨-, -, hleft, hleave⟩ | ⟨-, hleave⟩
      · rw [hleave]
        exact ⟨rfl, rfl, .inr ⟨hleft, rfl⟩, fun _ _ => id⟩
      · rw [hleave]
        exact ⟨rfl, rfl, .inl rfl, fun _ _ => id⟩

/-- A slot may leave the map if an invalidation of its key takes it out, or if a purge does that
retires it while it is free. -/
theorem SlotSound.of_leaving (h : w.SlotSound s slot) (hlater : w.Later w' n)
    {c' : CacheCall α ε} (hcall' : w'.calls n = some c')
    (hcause : c'.op = .purge ∧ retire = true ∧ slot.holder = none
      ∨ c'.op.invalidates slot.key = true ∧ c'.detached = some w.time) :
    w'.SlotSound s
      { slot with left := some (w.time, n), isRetired := slot.isRetired || retire } where
  created := by rw [hlater.time]; exact Nat.lt_succ_of_lt h.created
  inMap := nofun
  left t i hleft := by
    obtain ⟨rfl, rfl⟩ := Prod.mk.inj (Option.some.inj hleft)
    refine ⟨h.created, by rw [hlater.time]; exact Nat.lt_succ_self _, c', hcall', ?_⟩
    rcases hcause with ⟨hpurge, hretire, hholder⟩ | hinvalidates
    · exact .inl ⟨hpurge, by simp [hretire], hholder⟩
    · exact .inr hinvalidates
  retired _ := nofun
  entry entry hentry := hlater.authored (h.entry entry hentry)

/-- Slots that are taken out of the map for a reason leave the invariant as it is. -/
theorem Sound.of_detach (h : w.Sound) {c' : CacheCall α ε} {stage : CallStage α ε}
    (hat : w.At n c op stage) (hunserved : ∀ s author value, stage ≠ .served s author value)
    (hcalls : w'.calls = Function.update w.calls n (some c'))
    (hslots : w'.slots = (w.detach n gone retire).slots)
    (hmap : w'.map = (w.detach n gone retire).map)
    (hop : c'.op = c.op) (hdetached : ∀ d, c.detached = some d → c'.detached = some d)
    (htime : w'.time = w.time + 1)
    (hcause : ∀ s slot, w.slots s = some slot → gone slot.key s = true →
      c'.op = .purge ∧ retire = true ∧ slot.holder = none
        ∨ c'.op.invalidates slot.key = true ∧ c'.detached = some w.time)
    (hmoved : w.Later w' n → w'.CallSound n c') : w'.Sound := by
  have halike : w.SlotsAlike w' fun _ => SharedSlot.Becomes w.time n := fun s => by
    rw [hslots]
    exact h.slotsAlike_detach n gone retire s
  have hlater : w.Later w' n := by
    refine later_of_slotsAlike htime hcalls (fun other hother => ?_) halike
    obtain rfl := Option.some.inj (hat.call.symm.trans hother)
    exact ⟨hop, hdetached, fun s author value hserved =>
      absurd (hat.stage ▸ hserved) (hunserved s author value)⟩
  have hkept (key : CacheKey) (s : Nat) :
      w'.map[key]? = some s ↔ w.map[key]? = some s ∧ gone key s = false := by
    rw [hmap, detach, ExtTreeMap.getElem?_filter', Option.filter_eq_some_iff]
    simp
  have hcall' : w'.calls n = some c' := by rw [hcalls, Function.update_self]
  exact {
    map := fun key s hkey => by
      obtain ⟨hinMap, hstays⟩ := (hkept key s).mp hkey
      obtain ⟨slot, hslot, rfl, hleft⟩ := h.map key s hinMap
      refine ⟨slot, ?_, rfl, hleft⟩
      rw [hslots]
      change (w.slots s).map (w.leave n gone retire s) = _
      rw [hslot, Option.map_some, leave, if_neg (by simp [hstays])]
    slots := fun s slot' hslot' => by
      rw [hslots] at hslot'
      obtain ⟨slot, hslot, rfl⟩ := Option.map_eq_some_iff.mp hslot'
      have hsound := h.slots s slot hslot
      rcases h.leave_cases hslot n gone retire with ⟨-, hgone, -, hleave⟩ | ⟨hstays, hleave⟩
      · rw [hleave]
        exact hsound.of_leaving hlater hcall' (hcause s slot hslot hgone)
      · rw [hleave]
        exact hsound.of_stays hlater (fun hinMap => (hkept _ s).mpr ⟨hinMap, hstays hinMap⟩)
          (Stays.refl ..)
    calls := h.calls_of_later hlater hcall' (hmoved hlater)
    apart := h.apart_of_slotsAlike halike }

/-- A slot that an invalidation concerns has left the map once the invalidation has taken its
slots out. -/
theorem Sound.goneBy_detach (h : w.Sound) {slot' : SharedSlot α}
    (hslot' : (w.detach n (fun key _ => op.invalidates key) retire).slots s = some slot')
    (hconcerned : op.invalidates slot'.key = true) : slot'.GoneBy w.time := by
  obtain ⟨slot, hslot, rfl⟩ := Option.map_eq_some_iff.mp hslot'
  rcases h.leave_cases hslot n (fun key _ => op.invalidates key) retire with
    ⟨-, -, -, hleave⟩ | ⟨hstays, hleave⟩
  · rw [hleave]
    exact ⟨w.time, n, rfl, Nat.le_refl _⟩
  · rw [hleave] at hconcerned ⊢
    cases hleft : slot.left with
    | none =>
        have hkept := hstays ((h.slots s slot hslot).inMap hleft)
        rw [hconcerned] at hkept
        cases hkept
    | some left =>
        have hlt := ((h.slots s slot hslot).left left.1 left.2 hleft).2.1
        exact ⟨left.1, left.2, hleft, Nat.le_of_lt hlt⟩

theorem Sound.detach (h : w.Sound) (hat : w.At n c op .dropping) :
    ((w.detach n (fun key _ => op.invalidates key) false).put n
      { c with
        stage := .retiring (w.inMap fun key _ => op.invalidates key) 0
        detached := some w.time }).Sound := by
  obtain ⟨hcall, hdetached⟩ := hat.sound h
  obtain rfl := hat.op
  refine h.of_detach hat nofun rfl rfl rfl rfl ?_ rfl (fun s slot _ hgone => .inr ⟨hgone, rfl⟩)
    fun hlater => ?_
  · intro d hd
    rw [hdetached] at hd
    cases hd
  · refine ⟨Nat.lt_succ_of_lt hcall.started, ?_, ?_, rfl⟩
    · rintro d ⟨⟩
      exact ⟨Nat.lt_succ_self _, fun s slot' hslot' hconcerned =>
        .inr (h.goneBy_detach hslot' hconcerned)⟩
    · intro s hs
      obtain ⟨key, hinMap, hgone⟩ := mem_inMap_iff.mp hs
      obtain ⟨slot, hslot, rfl, -⟩ := h.map key s hinMap
      refine ⟨_, congrArg (Option.map _) hslot, ?_⟩
      rw [leave, if_pos ⟨hinMap, hgone⟩]
      nofun

theorem Sound.readClock (h : w.Sound) (hat : w.At n c .purge .dropping) (now : Tick) :
    (w.put n { c with stage := .sweeping now }).Sound := by
  obtain ⟨-, hstage⟩ := hat.sound h
  exact h.of_put hat nofun rfl rfl rfl rfl rfl rfl rfl fun _ => hstage

theorem Sound.sweep (h : w.Sound) (hat : w.At n c .purge (.sweeping now)) :
    (((w.detach n (fun _ s => w.isSwept now s) true).recordEvictions dropped).put n
      { c with stage := .dropped dropped w.time }).Sound := by
  obtain ⟨hcall, hstage⟩ := hat.sound h
  refine h.of_detach hat nofun rfl rfl rfl rfl (fun _ => id) rfl (fun s slot hslot hgone => ?_)
    fun hlater => ?_
  · have hholder : slot.holder = none := by
      simp only [isSwept, hslot, Option.all_some, Bool.and_eq_true, Option.isNone_iff_eq_none]
        at hgone
      exact hgone.1
    exact .inl ⟨hat.op, rfl, hholder⟩
  · exact hlater.moved hcall rfl rfl rfl ⟨.inl hat.op, fun d hd => (hcall.detached d hd).1⟩

end

/-! ## Runs -/

theorem sound_new (settings : CacheSettings) : (new settings : SharedCache α ε).Sound where
  map key s hkey := by simp [new] at hkey
  slots s slot hslot := by cases hslot
  calls n c hcall := by cases hcall
  apart s s' slot slot' _ hslot := by cases hslot

theorem Sound.step (h : w.Sound) (hstep : w.Step w') : w'.Sound := by
  cases hstep with
  | start op hfresh => exact h.start op hfresh
  | find hat hkey hslot => exact h.find hat hkey hslot
  | create hat hnone hfresh => exact h.create hat hnone hfresh
  | miss hat => exact h.of_put hat nofun rfl rfl rfl rfl rfl rfl rfl fun _ => trivial
  | retry hat => exact h.of_put hat nofun rfl rfl rfl rfl rfl rfl rfl fun _ => trivial
  | hit hat hfree _ now hlive => exact h.hit hat hfree hlive
  | begin hat hfree hretired => exact h.begin hat hfree hretired
  | store hat hslot now value => exact h.store hat hslot now value
  | fail hat hslot cause => exact h.fail hat hslot cause
  | see hat hfree now hlive => exact h.see hat hfree hlive
  | seeNothing hat => exact h.of_put hat nofun rfl rfl rfl rfl rfl rfl rfl fun _ => trivial
  | detach hat => exact h.detach hat
  | retire hat hmem hslot => exact h.retire hat hmem hslot
  | empty hat hfree => exact h.empty hat hfree _
  | finish hat => exact h.finish hat
  | readClock hat now => exact h.readClock hat now
  | sweep hat => exact h.sweep hat

theorem Reaches.sound {settings : CacheSettings} (h : Reaches settings w) : w.Sound := by
  induction h with
  | new => exact sound_new settings
  | step _ hstep ih => exact ih.step hstep

end SharedCache

end ControlPlane
