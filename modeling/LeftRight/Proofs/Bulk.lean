import LeftRight.OrderedSet.Key
import LeftRight.Proofs.Histories

/-!
# Sorted lists built at once

A sorted list can be built from a list of keys at once, by a stable sort after which repeated keys
are dropped, or by the insertion of one key after another. Of the keys that count as the same both
ways keep the first one, so they come to the same.
-/

namespace LeftRight.SortedList

open Std

variable {K : Type} [Ord K] {x : K} {xs ys : List K}

/-- The first key of a list that counts as the same as this one. -/
def first? (k : K) (xs : List K) : Option K := xs.find? fun x => compare x k == .eq

theorem first?_cons (k x : K) (xs : List K) :
    first? k (x :: xs) = if compare x k = .eq then some x else first? k xs := by
  rw [first?, List.find?_cons]
  cases compare x k <;> rfl

theorem mem_of_first? {k : K} (h : first? k xs = some x) : x ∈ xs ∧ compare x k = .eq :=
  ⟨List.mem_of_find?_eq_some h,
    beq_iff_eq.mp (List.find?_some (p := fun x => compare x k == .eq) h)⟩

/-- What was added first is the first of the keys that were added. -/
theorem firstSince_map_add (k : K) (xs : List K) :
    Change.firstSince k (xs.map .add) = first? k xs := by
  have hnone : ∀ change ∈ xs.map Change.add, (!change.removes k) = true := by
    intro change hchange
    obtain ⟨j, -, rfl⟩ := List.mem_map.mp hchange
    rfl
  rw [Change.firstSince, List.rtakeWhile_eq_self_iff.mpr hnone, List.find?_map, Option.map_map]
  have hkey : (Change.key ∘ Change.add : K → K) = id := rfl
  rw [hkey, Option.map_id]
  rfl

/-- A sorted list into which keys are inserted one after another. -/
theorem foldl_add_eq_applyAll (xs : List K) (s : SortedList K) :
    xs.foldl (fun s k => (s.add k).2) s = OrderedSet.applyAll (xs.map .add) s := by
  rw [OrderedSet.applyAll, List.foldl_map]
  rfl

section Repeats

variable [BEq K] [TransOrd K] [LawfulBEqOrd K]

/-- A key that is dropped is not the first of its like. -/
theorem first?_dropRepeatsAfter (k x : K) (ys : List K) :
    first? k (x :: dropRepeatsAfter x ys) = first? k (x :: ys) := by
  induction ys generalizing x with
  | nil => rfl
  | cons y ys ih =>
    unfold dropRepeatsAfter
    split
    · rename_i hyx
      have hlike : compare y k = compare x k :=
        TransCmp.congr_left (LawfulBEqOrd.compare_eq_iff_beq.mpr hyx)
      rw [ih x, first?_cons, first?_cons, first?_cons, hlike]
      split <;> rfl
    · rw [first?_cons, ih y, first?_cons k x (y :: ys)]

theorem first?_dropRepeats (k : K) (xs : List K) : first? k (dropRepeats xs) = first? k xs := by
  cases xs with
  | nil => rfl
  | cons x xs => exact first?_dropRepeatsAfter k x xs

/-- In what is left of a sorted list each key is less than the next one. -/
theorem ascending_dropRepeatsAfter (h : (x :: ys).Pairwise fun a b => (compare a b).isLE) :
    Ascending (x :: dropRepeatsAfter x ys) := by
  induction ys generalizing x with
  | nil => exact List.pairwise_singleton _ x
  | cons y ys ih =>
    obtain ⟨hx, hys⟩ := List.pairwise_cons.mp h
    unfold dropRepeatsAfter
    split
    · refine ih (List.pairwise_cons.mpr ⟨?_, hys.of_cons⟩)
      exact fun z hz => hx z (List.mem_cons_of_mem _ hz)
    · rename_i hyx
      have hlt : compare x y = .lt := by
        have hle : (compare x y).isLE := hx y (List.mem_cons_self ..)
        have hne : compare x y ≠ .eq := fun heq =>
          hyx (LawfulBEqOrd.compare_eq_iff_beq.mp (OrientedCmp.eq_symm heq))
        cases hxy : compare x y with
        | lt => rfl
        | eq => exact absurd hxy hne
        | gt => rw [hxy] at hle; cases hle
      have hlater := ih hys
      refine List.pairwise_cons.mpr ⟨fun z hz => ?_, hlater⟩
      rcases List.mem_cons.mp hz with rfl | hz
      · exact hlt
      · exact TransCmp.lt_trans hlt ((List.pairwise_cons.mp hlater).1 z hz)

theorem ascending_dropRepeats (h : xs.Pairwise fun a b => (compare a b).isLE) :
    Ascending (dropRepeats xs) := by
  cases xs with
  | nil => exact List.Pairwise.nil
  | cons x xs => exact ascending_dropRepeatsAfter h

end Repeats

variable [TransOrd K]

/-- In an ascending list there is no more than one key of each like. -/
theorem find?_eq_first? (h : Ascending xs) (k : K) : find? k xs = first? k xs := by
  cases hfirst : first? k xs with
  | some x =>
    obtain ⟨hx, hlike⟩ := mem_of_first? hfirst
    exact (find?_eq_some_iff h).mpr ⟨hx, OrientedCmp.eq_symm hlike⟩
  | none =>
    have hunlike := List.find?_eq_none.mp hfirst
    refine Option.eq_none_iff_forall_ne_some.mpr fun x hx => ?_
    obtain ⟨hmem, heq⟩ := (find?_eq_some_iff h).mp hx
    exact hunlike x hmem (beq_iff_eq.mpr (OrientedCmp.eq_symm heq))

theorem isLE_total (a b : K) : (compare a b).isLE || (compare b a).isLE := by
  rw [Bool.or_eq_true]
  by_cases hle : (compare a b).isLE
  · exact .inl hle
  · rw [OrientedCmp.lt_of_not_isLE hle]
    exact .inr rfl

/-- A stable sort leaves the keys that count as the same in their order. -/
theorem first?_mergeSort (k : K) (xs : List K) :
    first? k (xs.mergeSort fun a b => (compare a b).isLE) = first? k xs := by
  let le (a b : K) : Bool := (compare a b).isLE
  let like (a : K) : Bool := compare a k == .eq
  have htrans : ∀ a b c : K, le a b → le b c → le a c := fun _ _ _ => TransCmp.isLE_trans
  have hlike : (xs.filter like).Pairwise fun a b => le a b := by
    refine List.pairwise_of_forall_mem_list fun a ha b hb => ?_
    have hak : compare a k = .eq := beq_iff_eq.mp (List.mem_filter.mp ha).2
    have hbk : compare b k = .eq := beq_iff_eq.mp (List.mem_filter.mp hb).2
    have hab : compare a b = .eq := TransCmp.eq_trans hak (OrientedCmp.eq_symm hbk)
    change (compare a b).isLE
    rw [hab]
    rfl
  have hsublist : (xs.filter like).Sublist ((xs.mergeSort le).filter like) := by
    have hkept := (List.sublist_mergeSort htrans isLE_total hlike List.filter_sublist).filter like
    rwa [List.filter_filter, funext fun a => Bool.and_self (like a)] at hkept
  have hsame : (xs.mergeSort le).filter like = xs.filter like :=
    (hsublist.eq_of_length
      (((List.mergeSort_perm xs le).filter like).length_eq.symm)).symm
  change (xs.mergeSort le).find? like = xs.find? like
  rw [← List.head?_filter, ← List.head?_filter, hsame]

/-- The keys of a set that is built at once ascend. -/
theorem ascending_ofList [BEq K] [LawfulBEqOrd K] (xs : List K) : Ascending (ofList xs).keys := by
  refine ascending_dropRepeats (List.pairwise_mergeSort (fun _ _ _ => TransCmp.isLE_trans) ?_ xs)
  exact isLE_total

/-- A set that is built at once holds the first key of each like. -/
theorem find?_ofList [BEq K] [LawfulBEqOrd K] (xs : List K) (k : K) :
    find? k (ofList xs).keys = first? k xs := by
  rw [find?_eq_first? (ascending_ofList xs), ofList, first?_dropRepeats, first?_mergeSort]

/-- A set that is built at once is the one into which the keys are inserted one after another, and
it holds of each like the key that comes first. -/
theorem ofList_eq_insertions [BEq K] [LawfulBEqOrd K] (xs : List K) :
    ofList xs = xs.foldl (fun s k => (s.add k).2) {} ∧
    ∀ k, k ∈ (ofList xs).keys ↔ xs.find? (fun x => compare x k == .eq) = some k := by
  constructor
  · rw [foldl_add_eq_applyAll]
    refine congrArg SortedList.mk ((ascending_ofList xs).ext (ascending_applyAll _) fun k => ?_)
    rw [find?_ofList, ← firstSince_map_add]
    exact (find?_applyAll (xs.map .add) k).symm
  · intro k
    rw [(ascending_ofList xs).mem_iff, find?_ofList]
    rfl

theorem transOrd_tagged : TransOrd TaggedKey :=
  inferInstanceAs (TransCmp (compareOn TaggedKey.number))

theorem lawfulBEqOrd_tagged : LawfulBEqOrd TaggedKey where
  compare_eq_iff_beq {a b} := by
    change compare a.number b.number = .eq ↔ (a.number == b.number) = true
    rw [Std.compare_eq_iff_eq, beq_iff_eq]

/-- Of three keys that count as the same the first one is kept. -/
theorem ofList_eq_insertions_tagged :
    let xs : List TaggedKey := [⟨2, "a"⟩, ⟨1, "b"⟩, ⟨2, "c"⟩, ⟨1, "d"⟩, ⟨2, "e"⟩]
    TransOrd TaggedKey ∧ LawfulBEqOrd TaggedKey ∧
    ofList xs = xs.foldl (fun s k => (s.add k).2) {} ∧
    (∀ k, k ∈ (ofList xs).keys ↔ xs.find? (fun x => compare x k == .eq) = some k) ∧
    (ofList xs).keys.map (·.tag) = ["b", "a"] := by
  intro xs
  have := transOrd_tagged
  have := lawfulBEqOrd_tagged
  obtain ⟨hsame, hfirst⟩ := ofList_eq_insertions xs
  refine ⟨transOrd_tagged, lawfulBEqOrd_tagged, hsame, hfirst, ?_⟩
  rw [hsame]
  decide +kernel

end LeftRight.SortedList
