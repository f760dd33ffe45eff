import LeftRight.OrderedSet.SearchTree
import LeftRight.Proofs.Ascending
import LeftRight.Proofs.Lawful
import Std.Data.TreeSet.Lemmas

/-!
# What is stored for a key

A set stores one of the keys which the order does not tell apart, that which was added first. A
change looks at what is stored for its key, and alters nothing else. So changes of different keys
do not notice each other. Sorted lists and search trees are such sets.
-/

namespace LeftRight

open Std

variable {K : Type}

namespace Change

/-- What a change makes of that which is stored for its key. -/
def replace : Change K → Option K → Option K
  | add k, stored => some (stored.getD k)
  | remove _, _ => none

/-- Whether a change has an effect on that which is stored for its key. -/
def takes : Change K → Option K → Bool
  | add _, stored => stored.isNone
  | remove _, stored => stored.isSome

variable [Ord K]

/-- Whether a change is about this key, as far as the order tells. -/
def Touches (change : Change K) (k : K) : Prop := compare change.key k = .eq

instance (change : Change K) (k : K) : Decidable (change.Touches k) :=
  inferInstanceAs (Decidable (_ = _))

/-- What is stored for each key after a change. -/
def on (change : Change K) (stored : K → Option K) (k : K) : Option K :=
  if change.Touches k then change.replace (stored k) else stored k

variable {change : Change K} {stored stored' : K → Option K} {k : K}

/-- A change leaves what it is not about. -/
theorem on_of_not_touches (h : ¬ change.Touches k) : change.on stored k = stored k := if_neg h

/-- A change without effect leaves everything, if like keys share what is stored. -/
theorem on_of_not_takes (hcongr : ∀ {j k}, compare j k = .eq → stored j = stored k)
    (h : change.takes (stored change.key) = false) : change.on stored = stored := by
  funext k
  by_cases htouches : change.Touches k
  · rw [on, if_pos htouches]
    rw [hcongr htouches] at h
    cases change with
    | add key =>
      obtain ⟨x, hx⟩ := Option.isSome_iff_exists.mp (Option.isNone_eq_false_iff.mp h)
      rw [hx]
      rfl
    | remove key => exact (Option.isNone_iff_eq_none.mp (Option.isSome_eq_false_iff.mp h)).symm
  · exact on_of_not_touches htouches

/-- What is stored for a key after a change depends on what was stored for it. -/
theorem on_congr (h : stored k = stored' k) : change.on stored k = change.on stored' k := by
  rw [on, on, h]

end Change

/-- A set of which the changes are told by what is stored for each key. -/
class OrderedSet.Storing (S : Type) {K : outParam Type} [Ord K] [OrderedSet S K] where
  /-- Whether a set is in order. -/
  Valid : S → Prop
  /-- What is stored for each key. -/
  stored : S → K → Option K
  /-- For keys which the order does not tell apart the same is stored. -/
  stored_congr : ∀ {s : S} {j k : K}, compare j k = .eq → stored s j = stored s k
  /-- A key is present if one is stored for it. -/
  contains_eq : ∀ {s : S} {k : K}, contains k s = (stored s k).isSome
  /-- A change leaves a set in order. -/
  valid_apply : ∀ (change : Change K) {s : S}, Valid s → Valid (apply change s).2
  /-- A change says whether it has an effect. -/
  answer_apply : ∀ (change : Change K) {s : S}, Valid s →
    (apply change s).1 = .ok (change.takes (stored s change.key))
  /-- A change alters what is stored for its key. -/
  stored_apply : ∀ (change : Change K) {s : S}, Valid s →
    stored (apply change s).2 = change.on (stored s)
  /-- Sets list the same keys if the same are stored. -/
  toList_eq : ∀ {s t : S}, Valid s → Valid t → stored s = stored t → toList s = toList t

variable [Ord K] [TransOrd K]

/-- A sorted list is in order if its keys ascend. -/
instance : OrderedSet.Storing (SortedList K) where
  Valid s := SortedList.Ascending s.keys
  stored s k := SortedList.find? k s.keys
  stored_congr h := SortedList.find?_congr h _
  contains_eq := rfl
  valid_apply change s h := by
    rw [SortedList.apply_eq]
    cases heffect : SortedList.effect change s.keys with
    | none => exact h
    | some keys =>
      cases change with
      | add k => exact h.insert? heffect
      | remove k => exact h.erase? heffect
  answer_apply change s _ := by
    rw [SortedList.apply_eq]
    cases change with
    | add k => exact congrArg Except.ok (SortedList.isSome_insert? k s.keys)
    | remove k => exact congrArg Except.ok (SortedList.isSome_erase? k s.keys)
  stored_apply change s h := by
    rw [SortedList.apply_eq]
    funext j
    cases change with
    | add k => exact SortedList.find?_getD_insert? h k j
    | remove k => exact SortedList.find?_getD_erase? h k j
  toList_eq h h' hstored := h.ext h' (congrFun hstored)

/-- A search tree is always in order. -/
instance : OrderedSet.Storing (SearchTree K) where
  Valid _ := True
  stored s := s.keys.get?
  stored_congr := TreeSet.get?_congr
  contains_eq := TreeSet.contains_eq_isSome_get?
  valid_apply _ _ _ := trivial
  answer_apply change s _ := by
    cases change with
    | add k =>
      have hpresent : (s.keys.containsThenInsert k).1 = (s.keys.get? k).isSome := by simp
      change Except.ok (!(s.keys.containsThenInsert k).1) = .ok (s.keys.get? k).isNone
      rw [hpresent, Option.not_isSome]
    | remove k => exact congrArg Except.ok TreeSet.contains_eq_isSome_get?
  stored_apply change s _ := by
    funext j
    cases change with
    | add k =>
      change (s.keys.containsThenInsert k).2.get? j = _
      rw [TreeSet.containsThenInsert_snd, TreeSet.get?_insert]
      by_cases htouches : (Change.add k).Touches j
      · have heq : compare k j = .eq := htouches
        have hmem : k ∈ s.keys ↔ (s.keys.get? j).isSome :=
          (TreeSet.mem_congr heq).trans TreeSet.mem_iff_isSome_get?
        rw [Change.on, if_pos htouches]
        cases hget : s.keys.get? j with
        | none =>
          rw [hget] at hmem
          exact if_pos ⟨heq, fun hpresent => nomatch hmem.mp hpresent⟩
        | some x =>
          rw [hget] at hmem
          exact if_neg fun h => h.2 (hmem.mpr rfl)
      · rw [if_neg fun h => htouches h.1, Change.on_of_not_touches htouches]
    | remove k => exact TreeSet.get?_erase
  toList_eq _ _ hstored := TreeSet.equiv_iff_toList_eq.mp (.of_forall_get?_eq (congrFun hstored))

end LeftRight
