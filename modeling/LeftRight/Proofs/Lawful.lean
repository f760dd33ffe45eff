import LeftRight.OrderedSet.SearchTree
import LeftRight.OrderedSet.SortedList
import Std.Data.TreeSet.Lemmas

/-!
# Lawful sets

What the protocol asks of the copies: a change that reports no effect has none. That a change
depends on the set and the key only is in its type. A keyed set says more: what a change makes of
the keys. Two copies of one may differ in other things and still be the same to their readers.
-/

namespace LeftRight

/-- A set which a change leaves as it was, if it reports no effect. -/
class OrderedSet.Lawful (S : Type) {K : Type} [OrderedSet S K] : Prop where
  /-- A change without effect leaves the set as it was. -/
  unchanged : ∀ {change : Change K} {s t : S}, apply change s = (.ok false, t) → t = s

namespace OrderedSet

variable {S K : Type} [OrderedSet S K]

/-- The last of some changes is made to what the others have made. -/
theorem applyAll_concat (changes : List (Change K)) (change : Change K) (s : S) :
    applyAll (changes ++ [change]) s = (apply change (applyAll changes s)).2 := by
  rw [applyAll, List.foldl_append]
  rfl

end OrderedSet

/-- A set of which the reports are about its keys, and which keeps them if a change breaks off. -/
class OrderedSet.Keyed (S : Type) {K : outParam Type} [OrderedSet S K] where
  /-- What a change makes of some keys, if it has an effect on them. -/
  effect : Change K → List K → Option (List K)
  /-- An effect is a difference. -/
  effect_ne : ∀ {change : Change K} {keys keys' : List K},
    effect change keys = some keys' → keys' ≠ keys
  /-- A change that reports an effect has it. -/
  of_effective : ∀ {change : Change K} {s t : S}, apply change s = (.ok true, t) →
    effect change (toList s) = some (toList t)
  /-- A change reports no effect if there is none to be had. -/
  of_ineffective : ∀ {change : Change K} {s t : S}, apply change s = (.ok false, t) →
    effect change (toList s) = none ∧ toList t = toList s
  /-- A change that breaks off leaves the keys as they were. -/
  of_error : ∀ {change : Change K} {s t : S} {fault : Fault},
    apply change s = (.error fault, t) → toList t = toList s

namespace SortedList

variable {K : Type} [Ord K] {k : K}

theorem length_insert? {xs ys : List K} (h : insert? k xs = some ys) :
    ys.length = xs.length + 1 := by
  induction xs generalizing ys with
  | nil =>
    obtain rfl := Option.some.inj h
    rfl
  | cons x xs ih =>
    unfold insert? at h
    split at h
    · obtain rfl := Option.some.inj h
      rfl
    · simp at h
    · obtain ⟨zs, hzs, rfl⟩ := Option.map_eq_some_iff.mp h
      rw [List.length_cons, ih hzs, List.length_cons]

theorem length_erase? {xs ys : List K} (h : erase? k xs = some ys) :
    xs.length = ys.length + 1 := by
  induction xs generalizing ys with
  | nil => simp [erase?] at h
  | cons x xs ih =>
    unfold erase? at h
    split at h
    · simp at h
    · obtain rfl := Option.some.inj h
      rfl
    · obtain ⟨zs, hzs, rfl⟩ := Option.map_eq_some_iff.mp h
      rw [List.length_cons, ih hzs, List.length_cons]

/-- What a change makes of ascending keys. -/
def effect : Change K → List K → Option (List K)
  | .add k => insert? k
  | .remove k => erase? k

/-- A change of a sorted list reports whether it has an effect on the keys. -/
theorem apply_eq (change : Change K) (s : SortedList K) :
    OrderedSet.apply change s =
      (.ok (effect change s.keys).isSome, ⟨(effect change s.keys).getD s.keys⟩) := by
  cases change with
  | add k =>
    cases hk : insert? k s.keys <;> simp [OrderedSet.apply, add, report, effect, hk]
  | remove k =>
    cases hk : erase? k s.keys <;> simp [OrderedSet.apply, remove, report, effect, hk]

theorem effect_ne {change : Change K} {xs ys : List K} (h : effect change xs = some ys) :
    ys ≠ xs := by
  rintro rfl
  cases change with
  | add k =>
    have := length_insert? h
    omega
  | remove k =>
    have := length_erase? h
    omega

end SortedList

/-- A sorted list reports no effect only if it is given back. -/
instance {K : Type} [Ord K] : OrderedSet.Lawful (SortedList K) where
  unchanged {change s t} h := by
    rw [SortedList.apply_eq] at h
    obtain ⟨heffect, rfl⟩ := Prod.mk.inj h
    have hnone := Option.isNone_iff_eq_none.mp
      (Option.isSome_eq_false_iff.mp (Except.ok.inj heffect))
    rw [hnone]
    rfl

namespace SearchTree

open Std
open Std.DTreeMap.Internal (Impl)

variable {K : Type} [Ord K] {k : K}

/-- A balanced tree in which a key is not found is the same after the key was taken out. -/
theorem impl_erase_of_absent {V : K → Type} {t : Impl K V} (h : t.Balanced)
    (habsent : t.contains k = false) : (t.erase k h).impl = t := by
  induction t with
  | leaf => rfl
  | inner size k' value l r ihl ihr =>
    unfold Impl.contains at habsent
    unfold Impl.erase
    cases hcompare : compare k k' with
    | lt =>
      simp only [hcompare] at habsent ⊢
      simp only [ihl h.left habsent, Impl.balanceRErase_eq_balance, Impl.balance_eq_inner h]
    | gt =>
      simp only [hcompare] at habsent ⊢
      simp only [ihr h.right habsent, Impl.balanceLErase_eq_balance, Impl.balance_eq_inner h]
    | eq => simp [hcompare] at habsent

theorem erase_of_absent {keys : TreeSet K compare} (h : keys.contains k = false) :
    keys.erase k = keys := by
  obtain ⟨⟨⟨tree, wf⟩⟩⟩ := keys
  have herase : (tree.erase k wf.balanced).impl = tree := impl_erase_of_absent wf.balanced h
  simp only [TreeSet.erase, TreeMap.erase, DTreeMap.erase, herase]

theorem insert_of_present {keys : TreeSet K compare} (h : (keys.containsThenInsert k).1 = true) :
    (keys.containsThenInsert k).2 = keys := by
  obtain ⟨⟨⟨tree, wf⟩⟩⟩ := keys
  simp only [TreeSet.containsThenInsert, TreeMap.containsThenInsertIfNew,
    DTreeMap.containsThenInsertIfNew, Impl.containsThenInsertIfNew] at h ⊢
  by_cases hpresent : tree.contains k = true
  · simp only [hpresent, if_true]
  · simp [hpresent] at h

end SearchTree

/-- A search tree reports no effect only if it is given back, down to its shape. -/
instance {K : Type} [Ord K] : OrderedSet.Lawful (SearchTree K) where
  unchanged {change s t} h := by
    obtain ⟨hanswer, rfl⟩ := Prod.mk.inj h
    have hrefused := Except.ok.inj hanswer
    cases change with
    | add k => exact congrArg SearchTree.mk (SearchTree.insert_of_present (Bool.not_inj hrefused))
    | remove k => exact congrArg SearchTree.mk (SearchTree.erase_of_absent hrefused)

/-- A sorted list is nothing but its keys. -/
instance {K : Type} [Ord K] : OrderedSet.Keyed (SortedList K) where
  effect := SortedList.effect
  effect_ne := SortedList.effect_ne
  of_effective {change s t} h := by
    rw [SortedList.apply_eq] at h
    obtain ⟨heffect, rfl⟩ := Prod.mk.inj h
    obtain ⟨keys, hkeys⟩ := Option.isSome_iff_exists.mp (Except.ok.inj heffect)
    change SortedList.effect change s.keys = some _
    rw [hkeys]
    rfl
  of_ineffective {change s t} h := by
    rw [SortedList.apply_eq] at h
    obtain ⟨heffect, rfl⟩ := Prod.mk.inj h
    have hnone := Option.isNone_iff_eq_none.mp
      (Option.isSome_eq_false_iff.mp (Except.ok.inj heffect))
    refine ⟨hnone, ?_⟩
    change (SortedList.effect change s.keys).getD s.keys = s.keys
    rw [hnone]
    rfl
  of_error h := by
    rw [SortedList.apply_eq] at h
    cases h

end LeftRight
