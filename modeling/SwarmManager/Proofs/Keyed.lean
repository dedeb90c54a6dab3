import SwarmManager.Instance.Registry
import SwarmManager.Member.Services
import Mathlib.Data.List.Nodup
import Mathlib.Data.List.Perm.Basic

/-!
# Lists with keys of their own

The registries of a member are lists whose items have identifiers, and nearly
everything done to them goes by identifier: take out the first item of one, keep
the items of another.  If no two items share an identifier, taking out the first
is the same as keeping all others (`eraseP_key`), and so a registry of instances
from which several are removed is its own list, filtered (`toList_removeAll`).
What is done to the item at a place is done to the items of its identifier
(`set_key`, `eraseIdx_key`).
-/

namespace SwarmManager

set_option autoImplicit false

section Keyed

variable {α κ : Type} [DecidableEq κ] {key : α → κ} {items : List α}

/-- Taking out the first item of a key keeps exactly the items of other keys. -/
theorem eraseP_key (nodup : (items.map key).Nodup) (wanted : κ) :
    (items.eraseP fun item => key item == wanted) =
      items.filter fun item => key item != wanted := by
  induction items with
  | nil => rfl
  | cons first rest ih =>
      obtain ⟨apart, restNodup⟩ := List.nodup_cons.mp nodup
      by_cases here : key first = wanted
      · have others : ∀ item ∈ rest, key item ≠ wanted := by
          intro item member same
          exact apart (List.mem_map.mpr ⟨item, member, same.trans here.symm⟩)
        rw [List.eraseP_cons_of_pos (by simpa using here),
          List.filter_cons_of_neg (by simpa using here)]
        exact (List.filter_eq_self.mpr fun item member => by simpa using others item member).symm
      · rw [List.eraseP_cons_of_neg (by simpa using here),
          List.filter_cons_of_pos (by simpa using here), ih restNodup]

omit [DecidableEq κ] in
/-- Items at two places have keys of their own. -/
theorem key_getElem_inj (nodup : (items.map key).Nodup) {one two : Nat} {first : one < items.length}
    {second : two < items.length} (same : key items[one] = key items[two]) : one = two := by
  have item_eq : items[one] = items[two] :=
    List.inj_on_of_nodup_map nodup (List.getElem_mem first) (List.getElem_mem second) same
  exact nodup.of_map.getElem_inj_iff.mp item_eq

/-- To put an item at a place is to put it in place of the one of its key. -/
theorem set_key (nodup : (items.map key).Nodup) (place : Fin items.length) (item : α) :
    items.set place item =
      items.map fun other => if key other = key items[place] then item else other := by
  rw [Fin.getElem_fin]
  refine List.ext_getElem (by simp) fun position inside _ => ?_
  rw [List.length_set] at inside
  rw [List.getElem_set, List.getElem_map]
  by_cases here : place.val = position
  · subst here
    rw [if_pos rfl, if_pos rfl]
  · rw [if_neg here, if_neg fun same => here (key_getElem_inj nodup same).symm]

/-- To take out the item at a place is to keep the items of other keys. -/
theorem eraseIdx_key (nodup : (items.map key).Nodup) (place : Fin items.length) :
    items.eraseIdx place = items.filter fun other => key other != key items[place] := by
  have there : (items.findIdx? fun other => key other == key items[place]) = some place.val := by
    refine List.findIdx?_eq_some_iff_getElem.mpr ⟨place.isLt, by simp, fun other before same => ?_⟩
    exact Nat.ne_of_lt before (key_getElem_inj nodup (beq_iff_eq.mp same))
  rw [← eraseP_key nodup, List.eraseP_eq_eraseIdx, there]

end Keyed

/-- Removing instances keeps those of other identifiers, in their order. -/
theorem InstanceRegistry.toList_removeAll {registry : InstanceRegistry}
    (nodup : (registry.toList.map ProcessInstance.id).Nodup) (ids : List String) :
    (registry.removeAll ids).toList =
      registry.toList.filter fun process => !ids.contains process.id := by
  induction ids generalizing registry with
  | nil => exact (List.filter_eq_self.mpr fun _ _ => rfl).symm
  | cons id rest ih =>
      have removed := eraseP_key nodup id
      have still : ((registry.remove id).toList.map ProcessInstance.id).Nodup := by
        rw [toList_remove, removed]
        exact nodup.sublist (List.filter_sublist.map _)
      have unfolded : registry.removeAll (id :: rest) = (registry.remove id).removeAll rest := rfl
      rw [unfolded, ih still, toList_remove, removed, List.filter_filter]
      refine List.filter_congr fun process _ => ?_
      rw [List.contains_cons, Bool.not_or, Bool.and_comm]
      rfl

/-- An item with another key than the one at a place is still there when that one is gone. -/
theorem mem_eraseIdx_of_key_ne {α κ : Type} {items : List α} {place : Fin items.length} {item : α}
    (key : α → κ) (listed : item ∈ items) (different : key item ≠ key (items.get place)) :
    item ∈ items.eraseIdx place := by
  obtain ⟨position, inside, there⟩ := List.mem_iff_getElem.mp listed
  refine List.mem_eraseIdx_iff_getElem.mpr ⟨position, inside, ?_, there⟩
  rintro rfl
  exact different (congrArg key there.symm)

/-- Filling the gap of an item with the last one leaves all other items. -/
theorem perm_fillGap {α : Type} (items : List α) {place : Nat} (inside : place < items.length) :
    (Member.fillGap items place).Perm (items.eraseIdx place) := by
  obtain ⟨front, last, rfl⟩ : ∃ front last, items = front ++ [last] :=
    ⟨items.dropLast, items.getLast (List.ne_nil_of_length_pos (by omega)),
      (List.dropLast_append_getLast _).symm⟩
  rw [List.length_append, List.length_singleton] at inside
  simp only [Member.fillGap, List.getLast?_concat, List.dropLast_concat]
  rcases Nat.lt_or_eq_of_le (Nat.le_of_lt_succ inside) with before | rfl
  · rw [List.eraseIdx_append_of_lt_length before, List.set_eq_take_append_cons_drop, if_pos before,
      List.eraseIdx_eq_take_drop_succ, List.append_assoc]
    have swap : ([last] ++ front.drop (place + 1)).Perm (front.drop (place + 1) ++ [last]) :=
      List.perm_append_comm
    exact swap.append_left _
  · rw [List.set_eq_of_length_le (Nat.le_refl _), List.eraseIdx_append_of_length_le (Nat.le_refl _)]
    simp

end SwarmManager
