import Mathlib.Data.List.Nodup
import Mathlib.Data.List.Perm.Basic

/-!
# Sorted names

Names are sorted wherever their order must not depend on anything but the names themselves.  A
sorted list is determined by its members and how often each occurs, so two ways to the same members
end in the same list.
-/

namespace SchemaLoom.SortedNames

theorem nodup_eraseDups {α : Type} [BEq α] [LawfulBEq α] (items : List α) :
    items.eraseDups.Nodup := by
  cases items with
  | nil => simp
  | cons first rest =>
    rw [List.eraseDups_cons, List.nodup_cons, List.mem_eraseDups]
    exact ⟨by simp, nodup_eraseDups _⟩
termination_by items.length
decreasing_by
  have hfilter := List.length_filter_le (fun item => !item == first) rest
  rw [List.length_cons]
  omega

theorem pairwise_map_mergeSort {α : Type} (name : α → String) (items : List α) :
    ((items.mergeSort fun left right => name left ≤ name right).map name).Pairwise (· ≤ ·) := by
  rw [List.pairwise_map]
  have hpairwise := @List.pairwise_mergeSort _ (fun left right => decide (name left ≤ name right))
    (fun first second third => by simpa using String.le_trans)
    (fun first second => by simpa using String.le_total (name first) (name second)) items
  simpa using hpairwise

theorem pairwise_mergeSort (names : List String) :
    (names.mergeSort (· ≤ ·)).Pairwise (· ≤ ·) := by
  simpa using pairwise_map_mergeSort id names

theorem eq_of_perm {left right : List String} (hperm : left.Perm right)
    (hleft : left.Pairwise (· ≤ ·)) (hright : right.Pairwise (· ≤ ·)) : left = right := by
  apply hperm.eq_of_pairwise _ hleft hright
  intro first second _ _ hle hge
  exact String.le_antisymm hle hge

theorem pairwise_le_of_ascending {names : List String} (hascending : names.Pairwise (· < ·)) :
    names.Pairwise (· ≤ ·) :=
  hascending.imp fun hless => String.not_lt.mp (String.lt_asymm hless)

theorem ascending_mergeSort {names : List String} (hnodup : names.Nodup) :
    (names.mergeSort (· ≤ ·)).Pairwise (· < ·) := by
  have hsorted := (List.mergeSort_perm names (· ≤ ·)).nodup_iff.mpr hnodup
  apply ((pairwise_mergeSort names).and hsorted).imp
  rintro left right ⟨hle, hne⟩
  exact String.not_le.mp fun hge => hne (String.le_antisymm hle hge)

theorem nodup_of_ascending {names : List String} (hascending : names.Pairwise (· < ·)) :
    names.Nodup :=
  hascending.imp fun hless => String.ne_of_lt hless

/-- A strictly ascending list is the sorted form of every list with the same members. -/
theorem eq_mergeSort_of_ascending {names scanned : List String} (hperm : names.Perm scanned)
    (hascending : names.Pairwise (· < ·)) : names = scanned.mergeSort (· ≤ ·) := by
  apply eq_of_perm _ (pairwise_le_of_ascending hascending) (pairwise_mergeSort scanned)
  exact hperm.trans (List.mergeSort_perm scanned _).symm

end SchemaLoom.SortedNames
