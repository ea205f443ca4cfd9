import Mathlib.Data.List.Perm.Basic

/-!
# Collating keyed values

Values that arrive in any order, each under its key, are put into a list of
slots, and the slots that were filled are read off in order.
-/

namespace Slots

variable {β : Type}

/-- Put every value at its key. -/
def fill (slots : List (Option β)) (keyed : List (Nat × β)) : List (Option β) :=
  keyed.foldl (fun slots p => slots.set p.1 (some p.2)) slots

@[simp] theorem fill_nil (slots : List (Option β)) : fill slots [] = slots := rfl

@[simp] theorem fill_cons (slots : List (Option β)) (p : Nat × β) (keyed : List (Nat × β)) :
    fill slots (p :: keyed) = fill (slots.set p.1 (some p.2)) keyed := rfl

/-- When the values are those of one list at their keys, neither the order nor a
repetition matters. -/
theorem getElem?_fill {values : List β} {keyed : List (Nat × β)}
    (agree : ∀ p ∈ keyed, values[p.1]? = some p.2) (slots : List (Option β)) (i : Nat) :
    (fill slots keyed)[i]? =
      if i ∈ keyed.map Prod.fst ∧ i < slots.length then some values[i]? else slots[i]? := by
  induction keyed generalizing slots with
  | nil => simp
  | cons p keyed ih =>
      have rest : ∀ q ∈ keyed, values[q.1]? = some q.2 := fun q member =>
        agree q (List.mem_cons_of_mem p member)
      have value : some p.2 = values[p.1]? := (agree p List.mem_cons_self).symm
      rw [fill_cons, ih rest, value]
      simp only [List.length_set, List.map_cons, List.mem_cons]
      by_cases inside : i < slots.length
      · by_cases later : i ∈ keyed.map Prod.fst
        · simp only [later, inside, and_self, or_true, if_true]
        · by_cases here : i = p.1
          · subst here
            simp [later, inside]
          · simp only [later, here, inside, or_self, false_and, if_false]
            exact List.getElem?_set_ne (Ne.symm here)
      · simp only [inside, and_false, if_false]
        have outside : slots.length ≤ i := Nat.le_of_not_lt inside
        rw [List.getElem?_eq_none (by simpa using outside), List.getElem?_eq_none outside]

/-- The values of a list, each under its place and in any order, are read off as
that list. -/
theorem filterMap_fill {values : List β} {keyed : List (Nat × β)} {m : Nat}
    (keys : keyed.Perm (values.zipIdx.map Prod.swap)) (fits : values.length ≤ m) :
    (fill (List.replicate m none) keyed).filterMap id = values := by
  obtain ⟨k, rfl⟩ := Nat.exists_eq_add_of_le fits
  have agree : ∀ p ∈ keyed, values[p.1]? = some p.2 := by
    intro p member
    obtain ⟨q, place, rfl⟩ := List.mem_map.mp (keys.mem_iff.mp member)
    exact List.mem_zipIdx_iff_getElem?.mp place
  have placed : ∀ i, i ∈ keyed.map Prod.fst ↔ i < values.length := by
    intro i
    rw [(keys.map Prod.fst).mem_iff, List.map_map]
    have places : values.zipIdx.map (Prod.fst ∘ Prod.swap) = List.range values.length :=
      (List.zipIdx_map_snd 0 values).trans List.range_eq_range'.symm
    rw [places, List.mem_range]
  have filled : fill (List.replicate (values.length + k) none) keyed =
      values.map some ++ List.replicate k none := by
    apply List.ext_getElem?
    intro i
    rw [getElem?_fill agree]
    simp only [placed, List.length_replicate]
    by_cases low : i < values.length
    · rw [if_pos ⟨low, by omega⟩, List.getElem?_append_left (by simpa using low)]
      simp [low]
    · rw [if_neg (fun both => low both.1), List.getElem?_append_right (by simpa using low)]
      simp only [List.getElem?_replicate, List.length_map]
      by_cases inside : i < values.length + k
      · rw [if_pos inside, if_pos (by omega)]
      · rw [if_neg inside, if_neg (by omega)]
  rw [filled, List.filterMap_append, List.filterMap_map]
  simp

/-- A reordering of the images of a list is the image of a reordering of it. -/
theorem exists_perm_of_map {α : Type} {f : α → β} {l : List α} {images : List β}
    (h : images.Perm (l.map f)) : ∃ order : List α, order.Perm l ∧ images = order.map f := by
  have given : List.Forall₂ (fun b a => b = f a) (l.map f) l :=
    List.forall₂_map_left_iff.mpr (List.forall₂_same.mpr fun _ _ => rfl)
  obtain ⟨order, pointwise, perm⟩ := List.perm_comp_forall₂ h given
  have equal : List.Forall₂ (· = ·) images (order.map f) :=
    List.forall₂_map_right_iff.mpr pointwise
  rw [List.forall₂_eq_eq_eq] at equal
  exact ⟨order, perm, equal⟩

end Slots
