import LeftRight.Proofs.Stored
import Mathlib.Data.List.DropRight

/-!
# Histories of changes

What a set stores for a key follows from the changes of its past: it is the key that was added first
since the last removal. So sets of whatever kind that have gone through the same changes store the
same.
-/

namespace LeftRight

open Std

variable {K : Type} [Ord K]

namespace Change

/-- Whether a change takes out the keys that count as the same as this one. -/
def removes (k : K) : Change K → Bool
  | add _ => false
  | remove j => compare j k == .eq

/-- Of the keys that count as the same as this one, that which was added first since the last
removal. -/
def firstSince (k : K) (history : List (Change K)) : Option K :=
  ((history.rtakeWhile fun change => !change.removes k).find? (·.Touches k)).map key

/-- What is stored for each key after a history. -/
def onAll (history : List (Change K)) (stored : K → Option K) : K → Option K :=
  history.foldl (fun stored change => change.on stored) stored

theorem onAll_append (before after : List (Change K)) (stored : K → Option K) :
    onAll (before ++ after) stored = onAll after (onAll before stored) := List.foldl_append

theorem firstSince_concat_add (k j : K) (history : List (Change K)) :
    firstSince k (history ++ [add j]) =
      if (add j).Touches k then some ((firstSince k history).getD j)
      else firstSince k history := by
  unfold firstSince
  rw [List.rtakeWhile_concat_pos _ _ _ rfl, List.find?_append]
  cases List.find? (·.Touches k) (history.rtakeWhile fun change => !change.removes k) with
  | none => by_cases h : (add j).Touches k <;> simp [h, key]
  | some first => by_cases h : (add j).Touches k <;> simp [h]

theorem firstSince_concat_remove (k j : K) (history : List (Change K)) :
    firstSince k (history ++ [remove j]) =
      if (remove j).Touches k then none else firstSince k history := by
  unfold firstSince
  by_cases h : (remove j).Touches k
  · have hremoves : (remove j).removes k = true := beq_iff_eq.mpr h
    rw [List.rtakeWhile_concat_neg _ _ _ (by simp [hremoves]), if_pos h]
    rfl
  · have hremoves : (remove j).removes k = false := beq_eq_false_iff_ne.mpr h
    rw [List.rtakeWhile_concat_pos _ _ _ (by simp [hremoves]), if_neg h, List.find?_append]
    simp [h]

/-- What is stored after a history is what was added first since the last removal. -/
theorem onAll_eq_firstSince (history : List (Change K)) (k : K) :
    onAll history (fun _ => none) k = firstSince k history := by
  induction history using List.reverseRecOn with
  | nil => rfl
  | append_singleton history change ih =>
    have hlast : onAll (history ++ [change]) (fun _ => none) k =
        change.on (onAll history fun _ => none) k := by
      rw [onAll_append]
      rfl
    rw [hlast, on, ih]
    cases change with
    | add j => exact (firstSince_concat_add k j history).symm
    | remove j => exact (firstSince_concat_remove k j history).symm

end Change

namespace OrderedSet

variable {S : Type} [OrderedSet S K] [Storing S]

/-- A history leaves a set in order. -/
theorem Storing.valid_applyAll (history : List (Change K)) {s : S} (h : Storing.Valid s) :
    Storing.Valid (applyAll history s) := by
  induction history generalizing s with
  | nil => exact h
  | cons change history ih => exact ih (Storing.valid_apply change h)

/-- What is stored after a history follows from what was stored before. -/
theorem Storing.stored_applyAll (history : List (Change K)) {s : S} (h : Storing.Valid s) :
    Storing.stored (applyAll history s) = Change.onAll history (Storing.stored s) := by
  induction history generalizing s with
  | nil => rfl
  | cons change history ih =>
    have hlater := ih (Storing.valid_apply change h)
    rw [Storing.stored_apply change h] at hlater
    exact hlater

end OrderedSet

variable [TransOrd K]

/-- In a sorted list that is found which was added first since the last removal. -/
theorem SortedList.find?_applyAll (history : List (Change K)) (k : K) :
    find? k (OrderedSet.applyAll history ({} : SortedList K)).keys =
      Change.firstSince k history := by
  have hstored := OrderedSet.Storing.stored_applyAll history
    (show OrderedSet.Storing.Valid ({} : SortedList K) from List.Pairwise.nil)
  rw [← Change.onAll_eq_firstSince]
  exact congrFun hstored k

/-- A sorted list keeps ascending. -/
theorem SortedList.ascending_applyAll (history : List (Change K)) :
    Ascending (OrderedSet.applyAll history ({} : SortedList K)).keys :=
  OrderedSet.Storing.valid_applyAll history
    (show OrderedSet.Storing.Valid ({} : SortedList K) from List.Pairwise.nil)

end LeftRight
