/-
# Repeated items

Documents and catalogs refuse an identifier that is declared twice, and report the
first item that repeats an earlier one.
-/

namespace ControlPlane

variable {α : Type} [DecidableEq α]

/-- The first item of a list that is among `seen` or stands earlier in the list. -/
def firstRepeatAfter (seen : List α) : List α → Option α
  | [] => none
  | item :: rest => if item ∈ seen then some item else firstRepeatAfter (item :: seen) rest

/-- The first item of a list that stands earlier in it too. -/
def firstRepeat? (items : List α) : Option α :=
  firstRepeatAfter [] items

omit [DecidableEq α] in
/-- An item that was not seen is put before others that differ from it, or is seen from then on:
the same is known of the items either way. -/
theorem unseen_cons_iff {seen rest : List α} {item : α} (h : item ∉ seen) :
    (rest.Nodup ∧ ∀ other ∈ rest, other ∉ item :: seen) ↔
      (item :: rest).Nodup ∧ ∀ other ∈ item :: rest, other ∉ seen := by
  simp only [List.nodup_cons, List.mem_cons, not_or]
  constructor
  · intro ⟨hnodup, hfresh⟩
    refine ⟨⟨fun hmem => (hfresh item hmem).1 rfl, hnodup⟩, ?_⟩
    intro other hother
    rcases hother with rfl | hother
    · exact h
    · exact (hfresh other hother).2
  · intro ⟨⟨hnotMem, hnodup⟩, hfresh⟩
    refine ⟨hnodup, fun other hother => ⟨?_, hfresh other (.inr hother)⟩⟩
    intro heq
    exact hnotMem (heq ▸ hother)

theorem firstRepeatAfter_eq_none_iff (seen items : List α) :
    firstRepeatAfter seen items = none ↔ items.Nodup ∧ ∀ item ∈ items, item ∉ seen := by
  induction items generalizing seen with
  | nil => simp [firstRepeatAfter]
  | cons item rest ih =>
    simp only [firstRepeatAfter]
    split
    · next hseen => simp [hseen]
    · next hseen => rw [ih, unseen_cons_iff hseen]

/-- Nothing repeats exactly when all items differ. -/
theorem firstRepeat?_eq_none_iff (items : List α) : firstRepeat? items = none ↔ items.Nodup := by
  simp [firstRepeat?, firstRepeatAfter_eq_none_iff]

end ControlPlane
