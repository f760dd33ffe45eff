import LeftRight.OrderedSet.SortedList
import Mathlib.Data.List.Sort

/-!
# Ascending lists

What the changes of a sorted list do, as long as its keys ascend: which keys there are afterwards,
and which of them is found for another key. The list keeps ascending, and it is known by what is
found in it.
-/

namespace LeftRight.SortedList

open Std

variable {K : Type} [Ord K] {j k : K} {xs ys : List K}

/-- Whether the keys of a list ascend strictly. -/
def Ascending (xs : List K) : Prop := xs.Pairwise fun x y => compare x y = .lt

instance (xs : List K) : Decidable (Ascending xs) :=
  inferInstanceAs (Decidable (xs.Pairwise fun x y => compare x y = .lt))

/-- A key can be inserted exactly if it is not found. -/
theorem isSome_insert? (k : K) (xs : List K) : (insert? k xs).isSome = (find? k xs).isNone := by
  induction xs with
  | nil => rfl
  | cons x xs ih =>
    unfold insert? find?
    cases compare k x with
    | lt | eq => rfl
    | gt =>
      rw [Option.isSome_map]
      exact ih

/-- A key can be taken out exactly if it is found. -/
theorem isSome_erase? (k : K) (xs : List K) : (erase? k xs).isSome = (find? k xs).isSome := by
  induction xs with
  | nil => rfl
  | cons x xs ih =>
    unfold erase? find?
    cases compare k x with
    | lt | eq => rfl
    | gt =>
      rw [Option.isSome_map]
      exact ih

/-- After an insertion the new key is there and the old ones are. -/
theorem mem_insert? (h : insert? k xs = some ys) {x : K} : x ∈ ys ↔ x = k ∨ x ∈ xs := by
  induction xs generalizing ys with
  | nil =>
    obtain rfl := Option.some.inj h
    simp
  | cons y xs ih =>
    unfold insert? at h
    split at h
    · obtain rfl := Option.some.inj h
      simp
    · cases h
    · obtain ⟨zs, hzs, rfl⟩ := Option.map_eq_some_iff.mp h
      rw [List.mem_cons, List.mem_cons, ih hzs]
      exact or_left_comm

/-- What is left of a list is in the same order. -/
theorem sublist_erase? (h : erase? k xs = some ys) : ys.Sublist xs := by
  induction xs generalizing ys with
  | nil => cases h
  | cons y xs ih =>
    unfold erase? at h
    split at h
    · cases h
    · obtain rfl := Option.some.inj h
      exact List.sublist_cons_self ..
    · obtain ⟨zs, hzs, rfl⟩ := Option.map_eq_some_iff.mp h
      exact (ih hzs).cons_cons y

theorem Ascending.erase? (h : Ascending xs) (hys : erase? k xs = some ys) : Ascending ys :=
  List.Pairwise.sublist (sublist_erase? hys) h

variable [TransOrd K]

theorem Ascending.insert? (h : Ascending xs) (hys : insert? k xs = some ys) : Ascending ys := by
  induction xs generalizing ys with
  | nil =>
    obtain rfl := Option.some.inj hys
    exact List.pairwise_singleton _ k
  | cons x xs ih =>
    obtain ⟨hx, hxs⟩ := List.pairwise_cons.mp h
    unfold SortedList.insert? at hys
    split at hys
    · rename_i hlt
      obtain rfl := Option.some.inj hys
      refine List.pairwise_cons.mpr ⟨fun y hy => ?_, h⟩
      rcases List.mem_cons.mp hy with rfl | hy
      · exact hlt
      · exact TransCmp.lt_trans hlt (hx y hy)
    · cases hys
    · rename_i hgt
      obtain ⟨zs, hzs, rfl⟩ := Option.map_eq_some_iff.mp hys
      refine List.pairwise_cons.mpr ⟨fun y hy => ?_, ih hxs hzs⟩
      rcases (mem_insert? hzs).mp hy with rfl | hy
      · exact OrientedCmp.lt_of_gt hgt
      · exact hx y hy

/-- In an ascending list that key is found which the order does not tell apart. -/
theorem find?_eq_some_iff (h : Ascending xs) {x : K} :
    find? k xs = some x ↔ x ∈ xs ∧ compare k x = .eq := by
  induction xs with
  | nil => simp [find?]
  | cons y xs ih =>
    obtain ⟨hy, hxs⟩ := List.pairwise_cons.mp h
    -- All that follows is greater than the first key.
    have hlater (hle : (compare k y).isLE) (hx : x ∈ xs) : compare k x ≠ .eq := by
      rw [TransCmp.lt_of_isLE_of_lt hle (hy x hx)]
      nofun
    unfold find?
    rw [List.mem_cons]
    cases hcompare : compare k y with
    | lt =>
      refine iff_of_false nofun ?_
      rintro ⟨rfl | hx, heq⟩
      · cases hcompare.symm.trans heq
      · exact hlater (by rw [hcompare]; rfl) hx heq
    | eq =>
      refine ⟨fun hfound => ?_, ?_⟩
      · obtain rfl := Option.some.inj hfound
        exact ⟨.inl rfl, hcompare⟩
      · rintro ⟨rfl | hx, heq⟩
        · rfl
        · exact absurd heq (hlater (by rw [hcompare]; rfl) hx)
    | gt =>
      refine (ih hxs).trans (and_congr_left fun heq => ?_)
      rw [or_iff_right]
      rintro rfl
      cases hcompare.symm.trans heq

/-- The keys which the order does not tell apart find the same. -/
theorem find?_congr (h : compare j k = .eq) (xs : List K) : find? j xs = find? k xs := by
  induction xs with
  | nil => rfl
  | cons x xs ih =>
    unfold find?
    rw [TransCmp.congr_left h, ih]

/-- After a removal all keys are there but that one. -/
theorem mem_erase? (h : Ascending xs) (hys : SortedList.erase? k xs = some ys) {x : K} :
    x ∈ ys ↔ x ∈ xs ∧ compare k x ≠ .eq := by
  induction xs generalizing ys with
  | nil => cases hys
  | cons y xs ih =>
    obtain ⟨hy, hxs⟩ := List.pairwise_cons.mp h
    unfold SortedList.erase? at hys
    split at hys
    · cases hys
    · rename_i heq
      obtain rfl := Option.some.inj hys
      rw [List.mem_cons]
      refine ⟨fun hx => ⟨.inr hx, ?_⟩, ?_⟩
      · rw [TransCmp.congr_left heq, hy x hx]
        nofun
      · rintro ⟨rfl | hx, hne⟩
        · exact absurd heq hne
        · exact hx
    · rename_i hgt
      obtain ⟨zs, hzs, rfl⟩ := Option.map_eq_some_iff.mp hys
      rw [List.mem_cons, List.mem_cons, ih hxs hzs]
      refine ⟨?_, ?_⟩
      · rintro (rfl | ⟨hx, hne⟩)
        · exact ⟨.inl rfl, hgt.trans_ne nofun⟩
        · exact ⟨.inr hx, hne⟩
      · rintro ⟨rfl | hx, hne⟩
        · exact .inl rfl
        · exact .inr ⟨hx, hne⟩

/-- When a key was to be inserted, it is found for its like, unless another one was. -/
theorem find?_getD_insert? (h : Ascending xs) (k j : K) :
    find? j ((SortedList.insert? k xs).getD xs) =
      if compare k j = .eq then some ((find? j xs).getD k) else find? j xs := by
  have hpresent := isSome_insert? k xs
  cases hinsert : SortedList.insert? k xs with
  | none =>
    rw [hinsert] at hpresent
    obtain ⟨x, hx⟩ := Option.isSome_iff_exists.mp (Option.isNone_eq_false_iff.mp hpresent.symm)
    split
    · rename_i heq
      rw [find?_congr heq] at hx
      rw [hx]
      exact hx
    · rfl
  | some ys =>
    rw [hinsert] at hpresent
    have habsent : find? k xs = none := Option.isNone_iff_eq_none.mp hpresent.symm
    refine Option.ext fun x => ?_
    rw [Option.getD_some, find?_eq_some_iff (h.insert? hinsert), mem_insert? hinsert]
    split
    · rename_i heq
      rw [find?_congr heq] at habsent
      rw [habsent, Option.getD_none, Option.some_inj]
      constructor
      · rintro ⟨rfl | hx, hjx⟩
        · rfl
        · cases habsent.symm.trans ((find?_eq_some_iff h).mpr ⟨hx, hjx⟩)
      · rintro rfl
        exact ⟨.inl rfl, OrientedCmp.eq_symm heq⟩
    · rename_i hne
      rw [find?_eq_some_iff h]
      refine and_congr_left fun heq => or_iff_right ?_
      rintro rfl
      exact hne (OrientedCmp.eq_symm heq)

/-- When a key was to be taken out, nothing is found for its like. -/
theorem find?_getD_erase? (h : Ascending xs) (k j : K) :
    find? j ((SortedList.erase? k xs).getD xs) =
      if compare k j = .eq then none else find? j xs := by
  have hpresent := isSome_erase? k xs
  cases herase : SortedList.erase? k xs with
  | none =>
    rw [herase] at hpresent
    have habsent : find? k xs = none :=
      Option.isNone_iff_eq_none.mp (Option.isSome_eq_false_iff.mp hpresent.symm)
    split
    · rename_i heq
      rwa [find?_congr heq] at habsent
    · rfl
  | some ys =>
    refine Option.ext fun x => ?_
    rw [Option.getD_some, find?_eq_some_iff (h.erase? herase), mem_erase? h herase]
    split
    · rename_i hkj
      refine iff_of_false ?_ nofun
      rintro ⟨⟨-, hne⟩, hjx⟩
      exact hne (TransCmp.eq_trans hkj hjx)
    · rename_i hkj
      rw [find?_eq_some_iff h, and_assoc]
      refine and_congr_right fun _ => and_iff_right_of_imp fun hjx hkx => hkj ?_
      exact TransCmp.eq_trans hkx (OrientedCmp.eq_symm hjx)

/-- The keys of an ascending list are those which are found for themselves. -/
theorem Ascending.mem_iff (h : Ascending xs) {x : K} : x ∈ xs ↔ find? x xs = some x := by
  have hself : compare x x = .eq := ReflCmp.compare_self
  rw [find?_eq_some_iff h, and_iff_left hself]

/-- Ascending lists in which the same is found are the same. -/
theorem Ascending.ext (h : Ascending xs) (h' : Ascending ys)
    (hfind : ∀ k, find? k xs = find? k ys) : xs = ys := by
  have : Irrefl fun x y : K => compare x y = .lt := ⟨fun x hx => by
    have hself : compare x x = .eq := ReflCmp.compare_self
    cases hself.symm.trans hx⟩
  have : Antisymm fun x y : K => compare x y = .lt := ⟨fun x y hxy hyx =>
    absurd hyx (OrientedCmp.not_lt_of_lt hxy)⟩
  exact List.Pairwise.eq_of_mem_iff h h' fun x => by rw [h.mem_iff, h'.mem_iff, hfind x]

end LeftRight.SortedList
