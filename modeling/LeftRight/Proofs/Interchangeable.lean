import LeftRight.Proofs.Bulk
import LeftRight.Session.Keys

/-!
# Interchangeable sets

A sorted list and a search tree go through a session alike: from the same keys and by the same steps
they come to the same keys, and what they are asked they answer alike. In either that key is stored
which was added first since the last removal.
-/

namespace LeftRight

open Std OrderedSet

variable {K : Type}

namespace KeysStep

/-- The change that a step makes. -/
def change? : KeysStep K → Option (Change K)
  | change c => some c
  | _ => none

mutual

/-- Whether a step does not ask for an inspection text, which tells the kind of the set. -/
def isPlain : KeysStep K → Bool
  | inspection _ => false
  | fork steps => arePlain steps
  | _ => true

/-- Whether none of some steps asks for an inspection text. -/
def arePlain : List (KeysStep K) → Bool
  | [] => true
  | step :: steps => step.isPlain && arePlain steps

end

variable {S : Type} [Collection S K]

theorem performAll_cons (s : S) (step : KeysStep K) (steps : List (KeysStep K)) :
    performAll s (step :: steps) =
      (((perform s step).1, OrderedSet.size (perform s step).2) ::
          (performAll (perform s step).2 steps).1,
        (performAll (perform s step).2 steps).2) := by
  rw [performAll]

/-- A step makes its change, if it has one, and no other. -/
theorem perform_snd (s : S) (step : KeysStep K) :
    (perform s step).2 = applyAll step.change?.toList s := by
  cases step with
  | change c =>
    rw [perform]
    rcases happly : apply c s with ⟨fault | changed, s'⟩
    · exact (congrArg Prod.snd happly).symm
    · exact (congrArg Prod.snd happly).symm
  | _ => rw [perform]; rfl

/-- Some steps make their changes. -/
theorem performAll_snd (s : S) (steps : List (KeysStep K)) :
    (performAll s steps).2 = applyAll (steps.filterMap change?) s := by
  induction steps generalizing s with
  | nil => rw [performAll]; rfl
  | cons step steps ih =>
    rw [performAll_cons, ih, perform_snd, applyAll, applyAll, applyAll, ← List.foldl_append]
    cases step <;> rfl

end KeysStep

variable [Ord K]

section Trees

variable [TransOrd K]

/-- The keys of a search tree ascend. -/
theorem SearchTree.ascending_toList (t : SearchTree K) : SortedList.Ascending t.keys.toList :=
  TreeSet.ordered_toList

/-- In the keys of a search tree that is found which the tree stores. -/
theorem SearchTree.find?_toList (t : SearchTree K) (k : K) :
    SortedList.find? k t.keys.toList = t.keys.get? k := by
  rw [SortedList.find?_eq_first? t.ascending_toList]
  have hlist : t.keys.toList = t.keys.inner.toList.map Prod.fst :=
    TreeMap.map_fst_toList_eq_keys.symm
  rw [SortedList.first?, hlist, List.find?_map]
  cases hfound : t.keys.inner.toList.find? ((fun x => compare x k == .eq) ∘ Prod.fst) with
  | none =>
    have habsent : t.keys.inner.contains k = false :=
      TreeMap.find?_toList_eq_none_iff_contains_eq_false.mp hfound
    exact (TreeMap.getKey?_eq_none_of_contains_eq_false habsent).symm
  | some found =>
    exact (TreeMap.find?_toList_eq_some_iff_getKey?_eq_some_and_getElem?_eq_some.mp hfound).1.symm

/-- What a search tree stores that was built of a list is the first key of each like. -/
theorem SearchTree.get?_ofList (xs : List K) (k : K) :
    (SearchTree.ofList xs).keys.get? k = SortedList.first? k xs := by
  have hadded : SearchTree.ofList xs = applyAll (xs.map .add) {} := by
    rw [SearchTree.ofList, applyAll, List.foldl_map]
    rfl
  have hstored := Storing.stored_applyAll (xs.map .add)
    (show Storing.Valid ({} : SearchTree K) from trivial)
  rw [hadded, ← SortedList.firstSince_map_add, ← Change.onAll_eq_firstSince]
  exact congrFun hstored k

end Trees

/-- A set that says of its keys what they are: how many, whether there are none, and which. -/
structure OrderedSet.Accurate {S : Type} [OrderedSet S K] (s : S) : Prop where
  /-- So many keys as are listed. -/
  size_eq : size s = (toList s).length
  /-- It is empty exactly if no keys are listed. -/
  isEmpty_iff : isEmpty s = true ↔ toList s = []
  /-- A key is present exactly if one is listed that counts as the same. -/
  contains_iff : ∀ k, contains k s = true ↔ ∃ x ∈ toList s, compare x k = .eq

/-- An ascending list and a search tree which store the same. -/
structure Matches [TransOrd K] (s : SortedList K) (t : SearchTree K) : Prop where
  /-- The keys of the list ascend. -/
  ascending : SortedList.Ascending s.keys
  /-- In both the same is stored. -/
  stored_eq : Storing.stored s = Storing.stored t

section Matching

variable [TransOrd K] {s : SortedList K} {t : SearchTree K}

/-- They hold the same keys in the same order. -/
theorem Matches.keys_eq (h : Matches s t) : s.keys = t.keys.toList := by
  refine h.ascending.ext t.ascending_toList fun k => ?_
  rw [t.find?_toList]
  exact congrFun h.stored_eq k

theorem Matches.contains_eq (h : Matches s t) (k : K) : contains k s = contains k t := by
  rw [Storing.contains_eq, Storing.contains_eq, h.stored_eq]

theorem Matches.size_eq (h : Matches s t) : size s = size t := by
  change s.keys.length = t.keys.size
  rw [h.keys_eq, TreeSet.length_toList]

theorem Matches.isEmpty_eq (h : Matches s t) : isEmpty s = isEmpty t := by
  rw [isEmpty, isEmpty, h.size_eq]

/-- An ascending list says of its keys what they are. -/
theorem SortedList.accurate (h : SortedList.Ascending s.keys) : Accurate s where
  size_eq := rfl
  isEmpty_iff := beq_iff_eq.trans List.length_eq_zero_iff
  contains_iff k := by
    change (SortedList.find? k s.keys).isSome = true ↔ ∃ x ∈ s.keys, compare x k = .eq
    rw [SortedList.find?_eq_first? h, SortedList.first?, List.find?_isSome]
    simp only [beq_iff_eq]

/-- So does a tree that matches one. -/
theorem Matches.accurate (h : Matches s t) : Accurate t := by
  have hlist := SortedList.accurate h.ascending
  have hkeys : toList s = toList t := h.keys_eq
  constructor
  · rw [← h.size_eq, ← hkeys]
    exact hlist.size_eq
  · rw [← h.isEmpty_eq, ← hkeys]
    exact hlist.isEmpty_iff
  · intro k
    rw [← h.contains_eq, ← hkeys]
    exact hlist.contains_iff k

/-- A change has the same effect on both, or on none. -/
theorem Matches.answer_eq (h : Matches s t) (change : Change K) :
    (apply change s).1 = (apply change t).1 := by
  rw [Storing.answer_apply change h.ascending, h.stored_eq]
  exact (Storing.answer_apply change (s := t) trivial).symm

/-- After a change they still match. -/
theorem Matches.apply (h : Matches s t) (change : Change K) :
    Matches (apply change s).2 (apply change t).2 where
  ascending := Storing.valid_apply (S := SortedList K) change h.ascending
  stored_eq := by
    rw [Storing.stored_apply change h.ascending, h.stored_eq]
    exact (Storing.stored_apply change (s := t) trivial).symm

/-- After a history they still match. -/
theorem Matches.applyAll (h : Matches s t) (history : List (Change K)) :
    Matches (applyAll history s) (applyAll history t) := by
  induction history generalizing s t with
  | nil => exact h
  | cons change history ih => exact ih (h.apply change)

/-- Sets that are built of the same list match. -/
theorem matches_ofList [BEq K] [LawfulBEqOrd K] (xs : List K) :
    Matches (SortedList.ofList xs) (SearchTree.ofList xs) where
  ascending := SortedList.ascending_ofList xs
  stored_eq := funext fun k =>
    (SortedList.find?_ofList xs k).trans (SearchTree.get?_ofList xs k).symm

end Matching

namespace KeysStep

variable [TransOrd K] [BEq K] [Inspectable K]

mutual

/-- A step is answered alike by sets that match, and they match after it. -/
theorem perform_of_matches [LawfulBEqOrd K] {s : SortedList K} {t : SearchTree K}
    (h : Matches s t) :
    (step : KeysStep K) → step.isPlain = true →
      (perform s step).1 = (perform t step).1 ∧ Matches (perform s step).2 (perform t step).2
  | .change c, _ => by
    have hanswer := h.answer_eq c
    have hmatches := h.apply c
    rw [perform, perform]
    rcases hs : apply c s with ⟨fault | changed, s'⟩ <;>
      rcases ht : apply c t with ⟨fault' | changed', t'⟩ <;> rw [hs, ht] at hanswer hmatches
    · exact ⟨congrArg KeysAnswer.fault (Except.error.inj hanswer), hmatches⟩
    · cases hanswer
    · cases hanswer
    · exact ⟨congrArg KeysAnswer.flag (Except.ok.inj hanswer), hmatches⟩
  | .contains k, _ => by
    rw [perform, perform, h.contains_eq k]
    exact ⟨rfl, h⟩
  | .size, _ => by
    rw [perform, perform, h.size_eq]
    exact ⟨rfl, h⟩
  | .isEmpty, _ => by
    rw [perform, perform, h.isEmpty_eq]
    exact ⟨rfl, h⟩
  | .keys, _ => by
    rw [perform, perform]
    exact ⟨congrArg KeysAnswer.keys h.keys_eq, h⟩
  | .reversed, _ => by
    rw [perform, perform]
    exact ⟨congrArg (fun keys => KeysAnswer.keys keys.reverse) h.keys_eq, h⟩
  | .inspection _, hplain => by
    rw [isPlain] at hplain
    cases hplain
  | .equals ks, _ => by
    rw [perform, perform]
    refine ⟨?_, h⟩
    change KeysAnswer.flag (s.keys == (SortedList.ofList ks).keys) = _
    rw [h.keys_eq, (matches_ofList ks).keys_eq]
    rfl
  | .fork steps, hplain => by
    rw [isPlain] at hplain
    obtain ⟨hanswers, hmatches⟩ := performAll_of_matches h steps hplain
    rw [perform, perform]
    exact ⟨congrArg₂ KeysAnswer.fork hanswers hmatches.keys_eq, h⟩

/-- Steps are answered alike by sets that match, and they match after them. -/
theorem performAll_of_matches [LawfulBEqOrd K] {s : SortedList K} {t : SearchTree K}
    (h : Matches s t) :
    (steps : List (KeysStep K)) → arePlain steps = true →
      (performAll s steps).1 = (performAll t steps).1 ∧
        Matches (performAll s steps).2 (performAll t steps).2
  | [], _ => by
    rw [performAll, performAll]
    exact ⟨rfl, h⟩
  | step :: steps, hplain => by
    rw [arePlain, Bool.and_eq_true] at hplain
    obtain ⟨hanswer, hmatches⟩ := perform_of_matches h step hplain.1
    obtain ⟨hanswers, hlast⟩ := performAll_of_matches hmatches steps hplain.2
    rw [performAll_cons, performAll_cons, hanswer, hanswers, hmatches.size_eq]
    exact ⟨rfl, hlast⟩

end

/-- A session with a sorted list, after each number of its steps, and the same session with a search
tree. Both start with the keys of a list. -/
structure Interchangeable (xs : List K) (steps : List (KeysStep K)) : Prop where
  /-- The keys of the list ascend. -/
  ascending : ∀ i, SortedList.Ascending (performAll (SortedList.ofList xs) (steps.take i)).2.keys
  /-- The tree holds the same keys in the same order. -/
  keys_eq : ∀ i, (performAll (SortedList.ofList xs) (steps.take i)).2.keys =
    toList (performAll (SearchTree.ofList xs) (steps.take i)).2
  /-- Both say of their keys what they are; above all they are empty exactly if there are none. -/
  accurate : ∀ i, Accurate (performAll (SortedList.ofList xs) (steps.take i)).2 ∧
    Accurate (performAll (SearchTree.ofList xs) (steps.take i)).2
  /-- Of the keys that count as the same that one is held which was added first since the last
  removal. -/
  mem_iff : ∀ i k, k ∈ (performAll (SortedList.ofList xs) (steps.take i)).2.keys ↔
    Change.firstSince k (xs.map .add ++ (steps.take i).filterMap change?) = some k
  /-- A step that is answered in the negative leaves the list as it was. -/
  unchanged : ∀ i step, steps[i]? = some step →
    (perform (performAll (SortedList.ofList xs) (steps.take i)).2 step).1 = .flag false →
    (perform (performAll (SortedList.ofList xs) (steps.take i)).2 step).2 =
      (performAll (SortedList.ofList xs) (steps.take i)).2
  /-- All steps are answered alike, except for inspection texts. -/
  answers_eq : arePlain steps = true →
    (performAll (SortedList.ofList xs) steps).1 = (performAll (SearchTree.ofList xs) steps).1

/-- What is found in a sorted list after a session was added first since the last removal. -/
theorem find?_performAll [LawfulBEqOrd K] (xs : List K) (steps : List (KeysStep K)) (k : K) :
    SortedList.find? k (performAll (SortedList.ofList xs) steps).2.keys =
      Change.firstSince k (xs.map .add ++ steps.filterMap change?) := by
  have hstart : Storing.stored (SortedList.ofList xs) =
      Change.onAll (xs.map .add) fun _ => none := by
    funext j
    rw [Change.onAll_eq_firstSince, SortedList.firstSince_map_add]
    exact SortedList.find?_ofList xs j
  have hlast := Storing.stored_applyAll (steps.filterMap change?)
    (show Storing.Valid (SortedList.ofList xs) from SortedList.ascending_ofList xs)
  rw [hstart, ← Change.onAll_append, ← performAll_snd] at hlast
  rw [← Change.onAll_eq_firstSince]
  exact congrFun hlast k

omit [TransOrd K] in
/-- A step that is answered in the negative has no effect on a sorted list. -/
theorem perform_snd_of_flag_false {s : SortedList K} {step : KeysStep K}
    (h : (perform s step).1 = .flag false) : (perform s step).2 = s := by
  cases step with
  | change c =>
    rw [perform] at h ⊢
    rcases happly : apply c s with ⟨fault | changed, s'⟩ <;> rw [happly] at h
    · cases h
    · obtain rfl : changed = false := KeysAnswer.flag.inj h
      exact Lawful.unchanged happly
  | _ => exact perform_snd s _

/-- Whatever keys a sorted list and a search tree start with, and whatever steps are made with them,
the list keeps ascending, holds the keys that the tree holds, and answers as the tree does. -/
theorem interchangeable [LawfulBEqOrd K] (xs : List K) (steps : List (KeysStep K)) :
    Interchangeable xs steps := by
  have hstart := matches_ofList xs
  have hmatches (i : Nat) : Matches (performAll (SortedList.ofList xs) (steps.take i)).2
      (performAll (SearchTree.ofList xs) (steps.take i)).2 := by
    rw [performAll_snd, performAll_snd]
    exact hstart.applyAll _
  refine ⟨fun i => (hmatches i).ascending, fun i => (hmatches i).keys_eq,
    fun i => ⟨SortedList.accurate (hmatches i).ascending, (hmatches i).accurate⟩, fun i k => ?_,
    fun i step _ => perform_snd_of_flag_false,
    fun hplain => (performAll_of_matches hstart steps hplain).1⟩
  rw [(hmatches i).ascending.mem_iff, find?_performAll]

/-- A session in which keys that count as the same come and go. -/
def taggedSteps : List (KeysStep TaggedKey) := [
  .change (.add ⟨1, "d"⟩),
  .change (.remove ⟨2, "x"⟩),
  .fork [.change (.add ⟨2, "y"⟩), .isEmpty, .equals [⟨1, "z"⟩, ⟨2, "z"⟩]],
  .change (.add ⟨2, "e"⟩),
  .change (.add ⟨2, "f"⟩),
  .contains ⟨2, "q"⟩,
  .reversed]

/-- The keys are the first of three and the first since a removal, in the list and in the tree. -/
theorem interchangeable_tagged :
    let xs : List TaggedKey := [⟨2, "a"⟩, ⟨1, "b"⟩, ⟨2, "c"⟩]
    TransOrd TaggedKey ∧ LawfulBEqOrd TaggedKey ∧ arePlain taggedSteps = true ∧
    Interchangeable xs taggedSteps ∧
    (performAll (SortedList.ofList xs) (taggedSteps.take 7)).2.keys.map (·.tag) = ["b", "e"] := by
  intro xs
  have := SortedList.transOrd_tagged
  have := SortedList.lawfulBEqOrd_tagged
  have hsame := interchangeable xs taggedSteps
  refine ⟨SortedList.transOrd_tagged, SortedList.lawfulBEqOrd_tagged, rfl, hsame, ?_⟩
  rw [hsame.keys_eq]
  decide +kernel

end KeysStep

end LeftRight
