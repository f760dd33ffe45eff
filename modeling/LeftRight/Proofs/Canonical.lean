import LeftRight.Proofs.Bulk

/-!
# Sorted lists as a canonical form

Two sorted lists are equal if and only if they contain the same keys, whatever histories have led to
them: in both the keys ascend, so that their order is determined by which they are. Hence neither
the order of insertions nor a key that was taken out again can be seen in a set.
-/

namespace LeftRight

open Std OrderedSet

variable {K : Type} [Ord K]

namespace Change

/-- After some insertions a key is stored for which one was stored before, or which was inserted. -/
theorem isSome_onAll_adds (xs : List K) (stored : K → Option K) (k : K) :
    (onAll (xs.map .add) stored k).isSome =
      ((stored k).isSome || xs.any fun x => compare x k == .eq) := by
  induction xs generalizing stored with
  | nil => simp [onAll]
  | cons x xs ih =>
    have hnow : ((add x).on stored k).isSome = ((stored k).isSome || compare x k == .eq) := by
      by_cases htouches : (add x).Touches k
      · have heq : compare x k = .eq := htouches
        simp [on, htouches, replace, heq]
      · have hne : compare x k ≠ .eq := htouches
        simp [on, htouches, hne]
    rw [List.any_cons, ← Bool.or_assoc, ← hnow]
    exact ih _

/-- To what is stored for one key the changes of another one do not matter. -/
theorem onAll_filter [TransOrd K] {k j : K} (hkj : compare k j ≠ .eq) (history : List (Change K))
    {stored stored' : K → Option K} (h : stored j = stored' j) :
    onAll history stored j = onAll (history.filter fun c => ¬ c.Touches k) stored' j := by
  induction history generalizing stored stored' with
  | nil => exact h
  | cons c history ih =>
    by_cases hc : c.Touches k
    · have hother : ¬ c.Touches j := fun hcj =>
        hkj (TransCmp.eq_trans (OrientedCmp.eq_symm hc) hcj)
      rw [List.filter_cons_of_neg (by simpa using hc)]
      exact ih ((on_of_not_touches hother).trans h)
    · rw [List.filter_cons_of_pos (by simpa using hc)]
      exact ih (on_congr h)

/-- What was done to a key that is taken out in the end does not matter. -/
theorem onAll_remove_filter [TransOrd K] (k : K) (history : List (Change K))
    (stored : K → Option K) :
    onAll (history ++ [remove k]) stored =
      onAll ((history.filter fun c => ¬ c.Touches k) ++ [remove k]) stored := by
  funext j
  rw [onAll_append, onAll_append]
  change (remove k).on (onAll history stored) j =
    (remove k).on (onAll (history.filter fun c => ¬ c.Touches k) stored) j
  by_cases htouches : (remove k).Touches j
  · rw [on, on, if_pos htouches, if_pos htouches]
    rfl
  · exact on_congr (onAll_filter htouches history rfl)

end Change

namespace SortedList

/-- Who takes out what was inserted gets back the former keys. -/
theorem erase?_of_insert? [ReflOrd K] {k : K} {xs ys : List K} (h : insert? k xs = some ys) :
    erase? k ys = some xs := by
  have hself : compare k k = .eq := ReflCmp.compare_self
  induction xs generalizing ys with
  | nil =>
    obtain rfl := Option.some.inj h
    rw [erase?, hself]
  | cons x xs ih =>
    unfold insert? at h
    split at h
    · obtain rfl := Option.some.inj h
      rw [erase?, hself]
    · cases h
    · rename_i hgt
      obtain ⟨zs, hzs, rfl⟩ := Option.map_eq_some_iff.mp h
      rw [erase?, hgt]
      exact congrArg (Option.map (x :: ·)) (ih hzs)

variable [TransOrd K] {j k x : K} {xs ys : List K}

/-- What is not greater than the first of ascending keys is not among the others. -/
theorem find?_eq_none_of_isLE (h : Ascending (x :: xs)) (hle : (compare k x).isLE) :
    find? k xs = none := by
  obtain ⟨hx, hxs⟩ := List.pairwise_cons.mp h
  refine Option.eq_none_iff_forall_ne_some.mpr fun y hy => ?_
  obtain ⟨hmem, heq⟩ := (find?_eq_some_iff hxs).mp hy
  cases (TransCmp.lt_of_isLE_of_lt hle (hx y hmem)).symm.trans heq

/-- Ascending keys in which the same is found begin alike. -/
theorem compare_eq_of_found (h : ∀ k, (find? k (x :: xs)).isSome = (find? k (j :: ys)).isSome) :
    compare x j = .eq := by
  have hself (k : K) : compare k k = .eq := ReflCmp.compare_self
  have hx := h x
  have hj := h j
  simp only [find?, hself] at hx hj
  cases hcompare : compare x j with
  | eq => rfl
  | lt =>
    rw [hcompare] at hx
    cases hx
  | gt =>
    rw [OrientedCmp.lt_of_gt hcompare] at hj
    cases hj

/-- If ascending keys begin alike and the same is found in them, then also in the others. -/
theorem found_tail (hx : Ascending (x :: xs)) (hj : Ascending (j :: ys)) (hxj : compare x j = .eq)
    (h : ∀ k, (find? k (x :: xs)).isSome = (find? k (j :: ys)).isSome) (k : K) :
    (find? k xs).isSome = (find? k ys).isSome := by
  have hsame : compare k x = compare k j := TransCmp.congr_right hxj
  by_cases hle : (compare k x).isLE
  · rw [find?_eq_none_of_isLE hx hle, find?_eq_none_of_isLE hj (hsame ▸ hle)]
  · have hgt : compare k x = .gt := by
      cases hcompare : compare k x <;> simp_all
    have hk := h k
    simpa only [find?, ← hsame, hgt] using hk

variable [BEq K] [LawfulBEqOrd K]

omit [TransOrd K] in
theorem cons_beq_cons_iff :
    (x :: xs == j :: ys) = true ↔ compare x j = .eq ∧ (xs == ys) = true := by
  rw [List.cons_beq_cons, Bool.and_eq_true, LawfulBEqOrd.compare_eq_iff_beq]

/-- In equal lists the same is found. -/
theorem found_of_beq (h : (xs == ys) = true) (k : K) :
    (find? k xs).isSome = (find? k ys).isSome := by
  induction xs generalizing ys with
  | nil =>
    cases ys with
    | nil => rfl
    | cons j ys => cases h
  | cons x xs ih =>
    cases ys with
    | nil => cases h
    | cons j ys =>
      obtain ⟨hxj, hrest⟩ := cons_beq_cons_iff.mp h
      have hsame : compare k x = compare k j := TransCmp.congr_right hxj
      unfold find?
      rw [← hsame]
      cases compare k x with
      | lt | eq => rfl
      | gt => exact ih hrest

/-- Ascending lists in which the same is found are equal. -/
theorem beq_of_found (hxs : Ascending xs) (hys : Ascending ys)
    (h : ∀ k, (find? k xs).isSome = (find? k ys).isSome) : (xs == ys) = true := by
  have hfirst (k : K) (ks : List K) : (find? k (k :: ks)).isSome = true := by
    have hself : compare k k = .eq := ReflCmp.compare_self
    rw [find?, hself]
    rfl
  induction xs generalizing ys with
  | nil =>
    cases ys with
    | nil => rfl
    | cons j ys => cases (h j).trans (hfirst j ys)
  | cons x xs ih =>
    cases ys with
    | nil => cases (h x).symm.trans (hfirst x xs)
    | cons j ys =>
      have hxj := compare_eq_of_found h
      exact cons_beq_cons_iff.mpr ⟨hxj, ih hxs.of_cons hys.of_cons (found_tail hxs hys hxj h)⟩

omit [BEq K] [LawfulBEqOrd K] in
/-- What is found in a sorted list after a history follows from what was found before. -/
theorem find?_history {s : SortedList K} (h : Ascending s.keys) (history : List (Change K))
    (k : K) :
    find? k (applyAll history s).keys = Change.onAll history (fun k => find? k s.keys) k :=
  congrFun (Storing.stored_applyAll (S := SortedList K) history h) k

omit [BEq K] [LawfulBEqOrd K] in
/-- After some insertions a key is there that was there before or was inserted. -/
theorem isSome_find?_adds {s : SortedList K} (h : Ascending s.keys) (xs : List K) (k : K) :
    (find? k (applyAll (xs.map .add) s).keys).isSome =
      ((find? k s.keys).isSome || xs.any fun x => compare x k == .eq) := by
  rw [find?_history h, Change.isSome_onAll_adds]

/-- The sorted lists that there are: a set is empty or built at once, and may be changed. -/
inductive Built : SortedList K → Prop
  /-- The set of no keys. -/
  | empty : Built {}
  /-- The set of the keys in a list. -/
  | ofList (xs : List K) : Built (ofList xs)
  /-- What a change makes of a set. -/
  | change (c : Change K) {s : SortedList K} (built : Built s) : Built (apply c s).2

/-- In every set that there is the keys ascend. -/
theorem Built.ascending {s : SortedList K} (h : Built s) : Ascending s.keys := by
  induction h with
  | empty => exact List.Pairwise.nil
  | ofList xs => exact ascending_ofList xs
  | change c _ ih => exact Storing.valid_apply (S := SortedList K) c ih

omit [TransOrd K] [LawfulBEqOrd K] in
theorem Built.applyAll {s : SortedList K} (h : Built s) (history : List (Change K)) :
    Built (applyAll history s) := by
  induction history generalizing s with
  | nil => exact h
  | cons c history ih => exact ih (h.change c)

/-- A sorted list of which the keys tell nothing about its past. -/
structure Canonical (s : SortedList K) : Prop where
  /-- Another set is equal exactly if it contains the same keys. -/
  beq_iff : ∀ t, Built t → ((s == t) = true ↔ ∀ k, contains k s = contains k t)
  /-- In which order keys are inserted, and how often, makes no difference. -/
  insertions : ∀ xs ys : List K, (∀ x, x ∈ xs ↔ x ∈ ys) →
    (applyAll (xs.map .add) s == applyAll (ys.map .add) s) = true
  /-- What was done to a key before it was taken out makes no difference. -/
  removed : ∀ (k : K) (history : List (Change K)), applyAll (history ++ [.remove k]) s =
    applyAll (history.filter (fun c => ¬ c.Touches k) ++ [.remove k]) s
  /-- A set that is built of its keys is the same. -/
  rebuilt : SortedList.ofList s.keys = s
  /-- Who takes out a key that was inserted with effect gets back the former set. -/
  restored : ∀ (k : K) (t : SortedList K), apply (.add k) s = (.ok true, t) →
    apply (.remove k) t = (.ok true, s)

/-- However a sorted list has come about, it is canonical. -/
theorem canonical_of_built {s : SortedList K} (h : Built s) : Canonical s where
  beq_iff t ht := ⟨found_of_beq, beq_of_found h.ascending ht.ascending⟩
  insertions xs ys hxy := by
    refine beq_of_found (h.applyAll _).ascending (h.applyAll _).ascending fun k => ?_
    have hany : xs.any (fun x => compare x k == .eq) = ys.any (fun x => compare x k == .eq) := by
      rw [Bool.eq_iff_iff, List.any_eq_true, List.any_eq_true]
      simp only [hxy]
    rw [isSome_find?_adds h.ascending, isSome_find?_adds h.ascending, hany]
  removed k history := by
    have hkeys : (OrderedSet.applyAll (history ++ [.remove k]) s).keys =
        (OrderedSet.applyAll (history.filter (fun c => ¬ c.Touches k) ++ [.remove k]) s).keys := by
      refine (h.applyAll _).ascending.ext (h.applyAll _).ascending fun j => ?_
      rw [find?_history h.ascending, find?_history h.ascending, Change.onAll_remove_filter]
    exact congrArg SortedList.mk hkeys
  rebuilt := by
    refine congrArg SortedList.mk ((ascending_ofList _).ext h.ascending fun k => ?_)
    rw [find?_ofList, find?_eq_first? h.ascending]
  restored k t hadd := by
    rw [apply_eq] at hadd ⊢
    obtain ⟨heffect, rfl⟩ := Prod.mk.inj hadd
    obtain ⟨keys, hkeys⟩ := Option.isSome_iff_exists.mp (Except.ok.inj heffect)
    have hback : effect (.remove k) keys = some s.keys := erase?_of_insert? hkeys
    rw [hkeys, Option.getD_some, hback]
    rfl

/-- A set that was built at once, and lost a key and got one since. -/
def trimmed : SortedList TaggedKey :=
  OrderedSet.applyAll [.remove ⟨1, "x"⟩, .add ⟨3, "c"⟩] (ofList [⟨2, "a"⟩, ⟨1, "b"⟩, ⟨2, "q"⟩])

theorem trimmed_eq : trimmed = ⟨[⟨2, "a"⟩, ⟨3, "c"⟩]⟩ := by
  have hsorted : ofList [⟨2, "a"⟩, ⟨1, "b"⟩, ⟨2, "q"⟩] =
      (⟨[⟨1, "b"⟩, ⟨2, "a"⟩]⟩ : SortedList TaggedKey) := by
    have hba : (compare (⟨2, "a"⟩ : TaggedKey) ⟨1, "b"⟩).isLE = false := rfl
    have hbq : (compare (⟨1, "b"⟩ : TaggedKey) ⟨2, "q"⟩).isLE = true := rfl
    have haq : (compare (⟨2, "a"⟩ : TaggedKey) ⟨2, "q"⟩).isLE = true := rfl
    simp [ofList, List.mergeSort, hba, hbq, haq]
    rfl
  rw [trimmed, hsorted]
  rfl

/-- A set of which the keys were inserted one after another. -/
def grown : SortedList TaggedKey := OrderedSet.applyAll [.add ⟨3, "u"⟩, .add ⟨2, "v"⟩] {}

/-- Both sets contain the same numbers with other tags, and are equal. A number that is inserted and
taken out again leaves no trace. -/
theorem canonical_of_built_tagged :
    TransOrd TaggedKey ∧ LawfulBEqOrd TaggedKey ∧ Built trimmed ∧ Built grown ∧
    Canonical trimmed ∧
    trimmed.keys.map (·.tag) = ["a", "c"] ∧ grown.keys.map (·.tag) = ["v", "u"] ∧
    (trimmed == grown) = true ∧ (∀ k, contains k trimmed = contains k grown) ∧
    apply (.remove ⟨1, "y"⟩) (apply (.add ⟨1, "y"⟩) trimmed).2 = (.ok true, trimmed) := by
  have := transOrd_tagged
  have := lawfulBEqOrd_tagged
  have htrimmed : Built trimmed := ((Built.ofList _).change _).change _
  have hgrown : Built grown := (Built.empty.change _).change _
  have hcanonical := canonical_of_built htrimmed
  have hequal : (trimmed == grown) = true := by rw [trimmed_eq]; rfl
  have hadded : (apply (.add ⟨1, "y"⟩) trimmed).1 = .ok true := by rw [trimmed_eq]; rfl
  refine ⟨transOrd_tagged, lawfulBEqOrd_tagged, htrimmed, hgrown, hcanonical, ?_, rfl, hequal,
    (hcanonical.beq_iff grown hgrown).mp hequal, hcanonical.restored _ _ (Prod.ext hadded rfl)⟩
  rw [trimmed_eq]
  rfl

end SortedList

end LeftRight
