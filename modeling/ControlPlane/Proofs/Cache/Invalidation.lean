/-
# No invalidation is lost

A computation may be under way while its class is invalidated. It began with what was there before,
and it stores its value all the same, at any moment of the invalidation or after it. That value is
not served to anybody who asks after the invalidation has returned, because it is stored in a slot
that has left the map, and a slot that has left does not come back.

This is read off the invariant of the sections, which says of each slot when it was in the map and
of each call which slot it looked up and when.
-/

import ControlPlane.Proofs.Cache.Sections

namespace ControlPlane

namespace SharedCache

variable {α ε : Type} {w : SharedCache α ε} {n : Nat}

/-! ## What callers can rely on -/

section

variable {i g m r : Nat} {inv c c' : CacheCall α ε} {key : CacheKey} {s s' : Nat}

/-- Whoever asks after an invalidation has returned is served what was computed after it. -/
theorem Sound.served_after (h : w.Sound) (hinv : w.calls i = some inv)
    (hconcerned : inv.op.invalidates key = true) {count : Nat}
    (hreturned : inv.stage = .dropped count r) :
    ∃ d, inv.detached = some d ∧ d < r
      ∧ ∀ g c s author value, w.calls g = some c → c.op.key? = some key → r < c.started →
        c.stage = .served s author value →
        ∃ a begun, w.calls author = some a ∧ a.op = .get key
          ∧ a.stage = .served s author value ∧ a.begun = some begun ∧ d < begun := by
  have hsound := h.calls i inv hinv
  have hstage := hsound.stage
  rw [hreturned] at hstage
  obtain ⟨hcause, hbefore⟩ := hstage
  have hdetached : inv.detached.isSome := by
    rcases hcause with hpurge | hdetached
    · rw [hpurge] at hconcerned
      cases hconcerned
    · exact hdetached
  obtain ⟨d, hd⟩ := Option.isSome_iff_exists.mp hdetached
  refine ⟨d, hd, hbefore d hd, fun g c s author value hcall hkey hstarted hserved => ?_⟩
  have hstage := (h.calls g c hcall).stage
  rw [hserved] at hstage
  obtain ⟨⟨slot, hslot, hkey', -, hfound, -, hleft⟩, a, slot', begun, ha, hslot', hop, hstage',
    hbegun, hcreated⟩ := hstage
  obtain rfl := Option.some.inj (hslot.symm.trans hslot')
  obtain rfl : key = slot.key := Option.some.inj (hkey.symm.trans hkey')
  refine ⟨a, begun, ha, hop, hstage', hbegun, ?_⟩
  have hdr := hbefore d hd
  rcases (hsound.detached d hd).2 s slot hslot hconcerned with hlt | ⟨t, j, hgone, hle⟩
  · exact Nat.lt_trans hlt hcreated
  · -- the slot had left before it was looked up
    have hfound' := hleft t j hgone
    omega

/-- A call that finds its slot retired had looked it up before it was taken out of the map. -/
theorem Sound.left_after_found (h : w.Sound) (hat : w.At n c (.get key) (.queued s))
    {slot : SharedSlot α} (hslot : w.slots s = some slot) (hretired : slot.isRetired = true) :
    ∃ t i cause, slot.left = some (t, i) ∧ c.found < t ∧ t < w.time ∧ w.calls i = some cause
      ∧ (cause.op = .purge ∨ cause.op.invalidates key = true ∧ cause.detached = some t) := by
  have hsound := h.slots s slot hslot
  obtain ⟨slot', hslot', hkey, -, -, -, hfound⟩ := (hat.sound h).2
  obtain rfl := Option.some.inj (hslot.symm.trans hslot')
  rw [hat.op] at hkey
  obtain rfl := Option.some.inj hkey
  obtain ⟨⟨t, i⟩, hleft⟩ := Option.ne_none_iff_exists'.mp (hsound.retired hretired)
  obtain ⟨-, hlt, cause, hcall, hcause⟩ := hsound.left t i hleft
  exact ⟨t, i, cause, hleft, hfound t i hleft, hlt, hcall, hcause.imp And.left id⟩

/-- A slot that left the map and yet is being computed in was taken out by an invalidation. -/
theorem Sound.invalidated_between_of_leftBefore (h : w.Sound)
    (hat : w.At n c (.get key) (.computing s)) (hat' : w.At m c' (.get key) (.computing s'))
    {slot slot' : SharedSlot α} (hslot : w.slots s = some slot) (hslot' : w.slots s' = some slot')
    (hleft : slot.LeftBefore slot') :
    ∃ i inv t, w.calls i = some inv ∧ inv.op.invalidates key = true ∧ inv.detached = some t
      ∧ c.found < t ∧ t < c'.found := by
  obtain ⟨t, i, hleft, hlt⟩ := hleft
  obtain ⟨-, hstage⟩ := hat.sound h
  have hholder := hstage.holder hslot
  obtain ⟨⟨found, hfound, hkey, -, -, -, hbefore⟩, -⟩ := hstage
  obtain rfl := Option.some.inj (hslot.symm.trans hfound)
  obtain ⟨⟨found, hfound', -, hcreated, -⟩, -⟩ := (hat'.sound h).2
  obtain rfl := Option.some.inj (hslot'.symm.trans hfound')
  rw [hat.op] at hkey
  obtain rfl := Option.some.inj hkey
  obtain ⟨-, -, inv, hinv, hcause⟩ := (h.slots s slot hslot).left t i hleft
  rcases hcause with ⟨-, -, hfree⟩ | ⟨hconcerned, hdetached⟩
  · -- a purge passes over slots that are locked
    rw [hholder] at hfree
    cases hfree
  · exact ⟨i, inv, t, hinv, hconcerned, hdetached, hbefore t i hleft,
      Nat.lt_of_lt_of_le hlt hcreated⟩

/-- Of two computations of a key that are under way at once, one looked its slot up before some
invalidation of the key took it out of the map, and the other after. -/
theorem Sound.invalidated_between (h : w.Sound) (hat : w.At n c (.get key) (.computing s))
    (hat' : w.At m c' (.get key) (.computing s')) (hne : n ≠ m) :
    ∃ i inv t, w.calls i = some inv ∧ inv.op.invalidates key = true ∧ inv.detached = some t
      ∧ (c.found < t ∧ t < c'.found ∨ c'.found < t ∧ t < c.found) := by
  obtain ⟨⟨slot, hslot, hkey, -⟩, -⟩ := (hat.sound h).2
  obtain ⟨⟨slot', hslot', hkey', -⟩, -⟩ := (hat'.sound h).2
  have hkeys : slot.key = slot'.key := by
    rw [hat.op] at hkey
    rw [hat'.op] at hkey'
    exact Option.some.inj (hkey.symm.trans hkey')
  have hapart : s ≠ s' := by
    rintro rfl
    have hholder := (hat.sound h).2.holder hslot
    rw [(hat'.sound h).2.holder hslot] at hholder
    exact hne (Option.some.inj hholder).symm
  rcases h.apart s s' slot slot' hapart hslot hslot' hkeys with hleft | hleft
  · obtain ⟨i, inv, t, hinv, hconcerned, hdetached, hbetween⟩ :=
      h.invalidated_between_of_leftBefore hat hat' hslot hslot' hleft
    exact ⟨i, inv, t, hinv, hconcerned, hdetached, .inl hbetween⟩
  · obtain ⟨i, inv, t, hinv, hconcerned, hdetached, hbetween⟩ :=
      h.invalidated_between_of_leftBefore hat' hat hslot' hslot hleft
    exact ⟨i, inv, t, hinv, hconcerned, hdetached, .inr hbetween⟩

end

/-- However the sections of any number of calls interleave, no invalidation is lost. Whoever asks
for a key after an invalidation of it has returned is served only what a computation gave that began
after the invalidation took its slots out of the map. No slot in the map is retired, and a call that
has to look again had looked its slot up before the slot was taken out. Two computations of a key
overlap only where an invalidation took a slot out between the times at which they looked theirs
up. -/
theorem invalidation_not_lost {settings : CacheSettings} (h : Reaches settings w) :
    (∀ i inv key count r, w.calls i = some inv → inv.op.invalidates key = true →
        inv.stage = .dropped count r →
        ∃ d, inv.detached = some d ∧ d < r
          ∧ ∀ g c s author value, w.calls g = some c → c.op.key? = some key → r < c.started →
            c.stage = .served s author value →
            ∃ a begun, w.calls author = some a ∧ a.op = .get key
              ∧ a.stage = .served s author value ∧ a.begun = some begun ∧ d < begun)
    ∧ (∀ key s, w.map[key]? = some s →
        ∃ slot, w.slots s = some slot ∧ slot.key = key ∧ slot.isRetired = false)
    ∧ (∀ n c key s slot, w.At n c (.get key) (.queued s) → w.slots s = some slot →
        slot.isRetired = true →
        ∃ t i cause, slot.left = some (t, i) ∧ c.found < t ∧ t < w.time ∧ w.calls i = some cause
          ∧ (cause.op = .purge ∨ cause.op.invalidates key = true ∧ cause.detached = some t))
    ∧ ∀ n m c c' key s s', n ≠ m → w.At n c (.get key) (.computing s) →
        w.At m c' (.get key) (.computing s') →
        ∃ i inv t, w.calls i = some inv ∧ inv.op.invalidates key = true ∧ inv.detached = some t
          ∧ (c.found < t ∧ t < c'.found ∨ c'.found < t ∧ t < c.found) := by
  have hsound := h.sound
  refine ⟨?_, ?_, ?_, ?_⟩
  · exact fun i inv key count r hinv hconcerned hreturned =>
      hsound.served_after hinv hconcerned hreturned
  · exact fun key s hslot => hsound.not_retired hslot
  · exact fun n c key s slot hat hslot hretired => hsound.left_after_found hat hslot hretired
  · exact fun n m c c' key s s' hne hat hat' => hsound.invalidated_between hat hat' hne

/-- A value is computed while its class is invalidated. While the slot is out of the map and not yet
emptied, another call computes the key anew; the first value is stored and thrown away; and whoever
asks after the invalidation is served the second. -/
theorem invalidation_not_lost_of_staleComputation :
    let key : CacheKey := ⟨.tenantHierarchy, "tenant:3"⟩
    (∃ (w : SharedCache String Unit) (c c' : CacheCall String Unit), Reaches {} w
      ∧ w.At 0 c (.get key) (.computing 0) ∧ w.At 2 c' (.get key) (.computing 1)
      ∧ ∃ i inv t, w.calls i = some inv ∧ inv.op.invalidates key = true ∧ inv.detached = some t
        ∧ (c.found < t ∧ t < c'.found ∨ c'.found < t ∧ t < c.found))
    ∧ ∃ (w : SharedCache String Unit) (inv c : CacheCall String Unit), Reaches {} w
      ∧ w.At 1 inv (.invalidateClass .tenantHierarchy) (.dropped 1 11)
      ∧ w.At 3 c (.get key) (.served 1 2 "fresh")
      ∧ ∃ d, inv.detached = some d ∧ ∃ a begun, w.calls 2 = some a ∧ a.begun = some begun
        ∧ d < begun := by
  intro key
  have h₀ : Reaches {} (new {} : SharedCache String Unit) := .new
  have h₁ := h₀.step (.start (n := 0) (.get key) rfl)
  have h₂ := h₁.step (.create (n := 0) (s := 0) ⟨rfl, rfl, rfl⟩ (by decide +kernel) rfl)
  have h₃ := h₂.step (.begin (n := 0) ⟨rfl, rfl, rfl⟩ ⟨rfl, rfl⟩ rfl ⟨0⟩ rfl)
  have h₄ := h₃.step (.start (n := 1) (.invalidateClass .tenantHierarchy) rfl)
  have h₅ := h₄.step (.detach (n := 1) ⟨rfl, rfl, rfl⟩ nofun)
  have h₆ := h₅.step (.start (n := 2) (.get key) rfl)
  have h₇ := h₆.step (.create (n := 2) (s := 1) ⟨rfl, rfl, rfl⟩ (by decide +kernel) rfl)
  have h₈ := h₇.step (.begin (n := 2) ⟨rfl, rfl, rfl⟩ ⟨rfl, rfl⟩ rfl ⟨0⟩ rfl)
  have h₉ := h₈.step (.retire (n := 1) (s := 0) ⟨rfl, rfl, rfl⟩ (by decide +kernel) rfl)
  have h₁₀ := h₉.step (.store (n := 0) ⟨rfl, rfl, rfl⟩ rfl ⟨0⟩ "stale")
  have h₁₁ := h₁₀.step (.empty (n := 1) ⟨rfl, rfl, rfl⟩ ⟨rfl, rfl⟩)
  have h₁₂ := h₁₁.step (.finish (n := 1) ⟨rfl, rfl, rfl⟩ (by decide +kernel))
  have h₁₃ := h₁₂.step (.store (n := 2) ⟨rfl, rfl, rfl⟩ rfl ⟨0⟩ "fresh")
  have h₁₄ := h₁₃.step (.start (n := 3) (.get key) rfl)
  have h₁₅ := h₁₄.step (.find (n := 3) (s := 1) ⟨rfl, rfl, rfl⟩ rfl (by decide +kernel))
  have h₁₆ := h₁₅.step (.hit (n := 3) ⟨rfl, rfl, rfl⟩ ⟨rfl, rfl⟩ rfl ⟨0⟩
    (show SharedSlot.live? _ _ _ = some "fresh" by decide +kernel))
  constructor
  · obtain ⟨-, -, -, hbetween⟩ := invalidation_not_lost h₈
    exact ⟨_, _, _, h₈, ⟨rfl, rfl, rfl⟩, ⟨rfl, rfl, rfl⟩,
      hbetween 0 2 _ _ key 0 1 (by decide) ⟨rfl, rfl, rfl⟩ ⟨rfl, rfl, rfl⟩⟩
  · obtain ⟨hserved, -⟩ := invalidation_not_lost h₁₆
    obtain ⟨d, hd, -, hafter⟩ := hserved 1 _ key 1 11 rfl rfl rfl
    obtain ⟨a, begun, ha, -, -, hbegun, hlt⟩ :=
      hafter 3 _ 1 2 "fresh" rfl rfl (by decide) rfl
    exact ⟨_, _, _, h₁₆, ⟨rfl, rfl, rfl⟩, ⟨rfl, rfl, rfl⟩, d, hd, a, begun, ha, hbegun, hlt⟩

end SharedCache

end ControlPlane
