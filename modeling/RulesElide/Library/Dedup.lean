import Mathlib

/-!
# Items with new keys

A loop over items that keeps a set of keys and skips an item whose key is in the set.  `fresh`
are the items it does not skip: each key that is new occurs once among them.
-/

namespace Dedup

variable {Item Key : Type*} [DecidableEq Key] (key : Item → Key)

/-- The items whose keys are neither seen before nor those of earlier items. -/
def fresh (seen : List Key) : List Item → List Item
  | [] => []
  | item :: items =>
      if key item ∈ seen then fresh seen items else item :: fresh (seen ++ [key item]) items

variable {key} {seen : List Key} {items : List Item}

theorem fresh_sublist : (fresh key seen items).Sublist items := by
  induction items generalizing seen with
  | nil => exact List.Sublist.refl _
  | cons item items ih =>
      unfold fresh
      split
      · exact ih.cons item
      · exact ih.cons_cons item

/-- The keys of the items that are kept were not seen before. -/
theorem notMem_of_mem_fresh {item : Item} (h : item ∈ fresh key seen items) : key item ∉ seen := by
  induction items generalizing seen with
  | nil => exact absurd h List.not_mem_nil
  | cons first items ih =>
      unfold fresh at h
      split at h
      · exact ih h
      · rename_i hnew
        rcases List.mem_cons.mp h with rfl | hlater
        · exact hnew
        · exact fun hseen => ih hlater (List.mem_append_left _ hseen)

theorem nodup_fresh : ((fresh key seen items).map key).Nodup := by
  induction items generalizing seen with
  | nil => exact List.nodup_nil
  | cons item items ih =>
      unfold fresh
      split
      · exact ih
      · rw [List.map_cons, List.nodup_cons]
        refine ⟨fun hagain => ?_, ih⟩
        obtain ⟨other, hother, hkey⟩ := List.mem_map.mp hagain
        refine notMem_of_mem_fresh hother ?_
        rw [hkey]
        exact List.mem_append_right _ List.mem_cons_self

/-- Afterwards every key was seen. -/
theorem mem_seen_of_mem {item : Item} (h : item ∈ items) :
    key item ∈ seen ++ (fresh key seen items).map key := by
  induction items generalizing seen with
  | nil => exact absurd h List.not_mem_nil
  | cons first items ih =>
      unfold fresh
      split
      · rename_i hseen
        rcases List.mem_cons.mp h with rfl | hlater
        · exact List.mem_append_left _ hseen
        · exact ih hlater
      · rw [List.map_cons, List.append_cons]
        rcases List.mem_cons.mp h with rfl | hlater
        · exact List.mem_append_left _ (List.mem_append_right _ List.mem_cons_self)
        · exact ih hlater

theorem fresh_eq_nil (h : ∀ item ∈ items, key item ∈ seen) : fresh key seen items = [] := by
  induction items with
  | nil => rfl
  | cons item items ih =>
      obtain ⟨hitem, hitems⟩ := List.forall_mem_cons.mp h
      rw [fresh, if_pos hitem, ih hitems]

/-- Nothing is skipped exactly when all keys are new and different. -/
theorem fresh_eq_self_iff :
    fresh key seen items = items ↔ (items.map key).Nodup ∧ ∀ item ∈ items, key item ∉ seen := by
  constructor
  · intro h
    have hnodup : ((fresh key seen items).map key).Nodup := nodup_fresh
    rw [h] at hnodup
    exact ⟨hnodup, fun item hitem => notMem_of_mem_fresh (h.symm ▸ hitem)⟩
  · rintro ⟨hnodup, hnew⟩
    induction items generalizing seen with
    | nil => rfl
    | cons item items ih =>
        obtain ⟨hitem, hitems⟩ := List.forall_mem_cons.mp hnew
        rw [List.map_cons, List.nodup_cons] at hnodup
        rw [fresh, if_neg hitem, ih hnodup.2]
        intro other hother hseen
        -- seen before the loop, or just now
        rcases List.mem_append.mp hseen with hseen | hsame
        · exact hitems other hother hseen
        · exact hnodup.1 (List.mem_singleton.mp hsame ▸ List.mem_map_of_mem hother)

end Dedup
