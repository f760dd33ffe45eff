import LeftRight.Proofs.Steps
import Mathlib.Data.Set.Card

/-!
# Occupancy

The counters of an interleaving against the readers that are counted on them. A counter is a
word and wraps around, so it tells how many readers are counted only up to a multiple of the
word size; while no counter is crowded it is zero exactly if nobody is counted on it. Readers
may wait between learning the version and being counted, however often it is switched.
-/

namespace LeftRight

namespace ReaderPhase

/-- The slot and the version on which a reader is counted, if it is. -/
def place? : ReaderPhase → Option (Nat × Version)
  | counted slot version | looking slot version _ _ => some (slot, version)
  | _ => none

/-- The slot that a reader uses, if it reads. -/
def slot? : ReaderPhase → Option Nat
  | outside => none
  | announced slot _ | counted slot _ | looking slot _ _ _ => some slot

end ReaderPhase

/-- Nobody is counted on a new gate. -/
theorem Gate.count_of_create {slots : Nat} {slowDrain : Option Duration} {gate : Gate}
    (h : Gate.create slots slowDrain = .ok gate) (v : Version) (slot : Nat) :
    gate.indicator.count v slot = 0 := by
  unfold Gate.create Indicator.create at h
  split at h
  · cases h
  · cases h
    simp only [Indicator.count, List.getElem?_replicate]
    split <;> cases v <;> rfl

namespace System

variable {S K : Type}

/-- The readers that are counted on a slot under a version. -/
def counted (slot : Nat) (v : Version) (s : System S K) : Set Nat :=
  {thread | (s.readers thread).place? = some (slot, v)}

/-- There are fewer readers on each counter than there are words. -/
def Uncrowded (s : System S K) : Prop :=
  ∀ slot v, (s.counted slot v).ncard < UInt64.size

/-- The counters tell how many readers there are, up to a multiple of the word size. -/
structure Tallied (s : System S K) : Prop where
  /-- Only finitely many readers are counted anywhere. -/
  finite : ∀ slot v, (s.counted slot v).Finite
  /-- A counter is the number of its readers, wrapped around. -/
  count_eq : ∀ slot v,
    s.gate.indicator.count v slot = UInt64.ofNat (s.counted slot v).ncard
  /-- Readers use slots that exist. -/
  inRange : ∀ thread slot, (s.readers thread).slot? = some slot → slot < s.gate.indicator.size

theorem mem_counted {slot : Nat} {v : Version} {s : System S K} {thread : Nat} :
    thread ∈ s.counted slot v ↔ (s.readers thread).place? = some (slot, v) := Iff.rfl

/-- A reader that keeps its place leaves all places as they were. -/
theorem counted_setReader_of_place {thread : Nat} {phase : ReaderPhase} {s : System S K}
    (h : phase.place? = (s.readers thread).place?) (slot : Nat) (v : Version) :
    (s.setReader thread phase).counted slot v = s.counted slot v := by
  ext other
  rw [mem_counted, mem_counted]
  by_cases ho : other = thread
  · subst ho
    rw [setReader_same, h]
  · rw [setReader_of_ne ho]

/-- A reader that comes to a place is there in addition to those who were. -/
theorem counted_setReader_of_eq {thread slot : Nat} {v : Version} {phase : ReaderPhase}
    (h : phase.place? = some (slot, v)) (s : System S K) :
    (s.setReader thread phase).counted slot v = insert thread (s.counted slot v) := by
  ext other
  rw [Set.mem_insert_iff, mem_counted, mem_counted]
  by_cases ho : other = thread
  · subst ho
    simp [h]
  · simp [setReader_of_ne ho, ho]

/-- A reader that is not at a place leaves there those others who were. -/
theorem counted_setReader_of_ne {thread slot : Nat} {v : Version} {phase : ReaderPhase}
    (h : phase.place? ≠ some (slot, v)) (s : System S K) :
    (s.setReader thread phase).counted slot v = s.counted slot v \ {thread} := by
  ext other
  rw [Set.mem_sdiff, Set.mem_singleton_iff, mem_counted, mem_counted]
  by_cases ho : other = thread
  · subst ho
    simp [h]
  · simp [setReader_of_ne ho, ho]

/-- A reader that comes to a phase may be new at a place, and nobody else is. -/
theorem counted_setReader_subset (thread : Nat) (phase : ReaderPhase) (s : System S K)
    (slot : Nat) (v : Version) :
    (s.setReader thread phase).counted slot v ⊆ insert thread (s.counted slot v) := by
  intro other hm
  rw [Set.mem_insert_iff, or_iff_not_imp_left]
  intro ho
  rwa [mem_counted, setReader_of_ne ho] at hm

/-- A change of one counter that goes with a change of the readers at its place keeps the
tally, if it is right at that place. -/
theorem Tallied.adjust {s : System S K} (h : s.Tallied) {thread slot : Nat} {v : Version}
    {phase : ReaderPhase} {f : UInt64 → UInt64} (hslot : slot < s.gate.indicator.size)
    (hphase : ∀ slot', phase.slot? = some slot' → slot' = slot)
    (hother : ∀ slot' v', (slot', v') ≠ (slot, v) →
      (s.setReader thread phase).counted slot' v' = s.counted slot' v')
    (hfinite : ((s.setReader thread phase).counted slot v).Finite)
    (hcount : f (s.gate.indicator.count v slot) =
      UInt64.ofNat ((s.setReader thread phase).counted slot v).ncard) :
    ((s.adjust slot v f).setReader thread phase).Tallied where
  finite slot' v' := by
    change ((s.setReader thread phase).counted slot' v').Finite
    by_cases hp : (slot', v') = (slot, v)
    · cases hp
      exact hfinite
    · rw [hother slot' v' hp]
      exact h.finite slot' v'
  count_eq slot' v' := by
    change (s.gate.indicator.adjust slot v f).count v' slot' =
      UInt64.ofNat ((s.setReader thread phase).counted slot' v').ncard
    by_cases hp : (slot', v') = (slot, v)
    · cases hp
      rw [Indicator.count_adjust hslot, hcount]
    · have hne : slot ≠ slot' ∨ v ≠ v' := by
        by_contra hc
        push Not at hc
        exact hp (by rw [hc.1, hc.2])
      rw [Indicator.count_adjust_of_ne _ _ hne, hother slot' v' hp, h.count_eq]
  inRange other slot' ho := by
    change slot' < (s.gate.indicator.adjust slot v f).size
    rw [Indicator.size_adjust]
    by_cases he : other = thread
    · subst he
      rw [setReader_same] at ho
      exact hphase slot' ho ▸ hslot
    · rw [setReader_of_ne he] at ho
      exact h.inRange other slot' ho

/-- A reader that is counted, and its counter with it, keeps the tally. -/
theorem Tallied.count {s : System S K} (h : s.Tallied) {thread slot : Nat} {v : Version}
    (hr : s.readers thread = .announced slot v) :
    ((s.adjust slot v (· + 1)).setReader thread (.counted slot v)).Tallied := by
  have hslot : slot < s.gate.indicator.size := h.inRange thread slot (by rw [hr]; rfl)
  have hplace : (s.readers thread).place? = none := by rw [hr]; rfl
  have hnotMem (slot' : Nat) (v' : Version) : thread ∉ s.counted slot' v' := by
    rw [mem_counted, hplace]
    nofun
  have hinsert : (s.setReader thread (.counted slot v)).counted slot v =
      insert thread (s.counted slot v) := counted_setReader_of_eq rfl s
  refine h.adjust hslot (fun slot' hs => (Option.some.inj hs).symm) ?_ ?_ ?_
  · intro slot' v' hne
    have hplace' : (ReaderPhase.counted slot v).place? ≠ some (slot', v') :=
      fun he => hne (Option.some.inj he).symm
    rw [counted_setReader_of_ne hplace', Set.sdiff_singleton_eq_self (hnotMem slot' v')]
  · rw [hinsert]
    exact (h.finite slot v).insert thread
  · rw [hinsert, Set.ncard_insert_of_notMem (hnotMem slot v) (h.finite slot v), h.count_eq,
      UInt64.ofNat_add]
    rfl

/-- A reader that is counted no longer, and its counter with it, keeps the tally. -/
theorem Tallied.depart {s : System S K} (h : s.Tallied) {thread slot since : Nat} {v : Version}
    {side : Side} (hr : s.readers thread = .looking slot v side since) :
    ((s.adjust slot v (· - 1)).setReader thread .outside).Tallied := by
  have hslot : slot < s.gate.indicator.size := h.inRange thread slot (by rw [hr]; rfl)
  have hplace : (s.readers thread).place? = some (slot, v) := by rw [hr]; rfl
  have hmem : thread ∈ s.counted slot v := hplace
  have herase (slot' : Nat) (v' : Version) : (s.setReader thread .outside).counted slot' v' =
      s.counted slot' v' \ {thread} := counted_setReader_of_ne (by simp [ReaderPhase.place?]) s
  refine h.adjust hslot nofun ?_ ?_ ?_
  · intro slot' v' hne
    have hnotMem : thread ∉ s.counted slot' v' := fun hm =>
      hne (Option.some.inj (hm.symm.trans hplace))
    rw [herase, Set.sdiff_singleton_eq_self hnotMem]
  · rw [herase]
    exact (h.finite slot v).sdiff
  · have hpos : 1 ≤ (s.counted slot v).ncard :=
      (Set.ncard_pos (h.finite slot v)).mpr ⟨thread, hmem⟩
    rw [herase, Set.ncard_sdiff_singleton_of_mem hmem, h.count_eq, UInt64.ofNat_sub hpos]
    rfl

/-- The tally is about the readers and the counters only. -/
theorem Tallied.congr {s t : System S K} (h : s.Tallied) (hreaders : t.readers = s.readers)
    (hcount : ∀ v slot, t.gate.indicator.count v slot = s.gate.indicator.count v slot)
    (hsize : t.gate.indicator.size = s.gate.indicator.size) : t.Tallied := by
  have hcounted (slot : Nat) (v : Version) : t.counted slot v = s.counted slot v := by
    unfold counted
    rw [hreaders]
  constructor
  · intro slot v
    rw [hcounted]
    exact h.finite slot v
  · intro slot v
    rw [hcount, hcounted]
    exact h.count_eq slot v
  · intro thread slot hs
    rw [hreaders] at hs
    rw [hsize]
    exact h.inRange thread slot hs

/-- A reader that keeps its place, on a slot that exists, keeps the tally. -/
theorem Tallied.setReader {s : System S K} (h : s.Tallied) {thread : Nat} {phase : ReaderPhase}
    (hplace : phase.place? = (s.readers thread).place?)
    (hslot : ∀ slot, phase.slot? = some slot → slot < s.gate.indicator.size) :
    (s.setReader thread phase).Tallied := by
  constructor
  · intro slot v
    rw [counted_setReader_of_place hplace]
    exact h.finite slot v
  · intro slot v
    rw [counted_setReader_of_place hplace]
    exact h.count_eq slot v
  · intro other slot hs
    by_cases he : other = thread
    · subst he
      rw [setReader_same] at hs
      exact hslot slot hs
    · rw [setReader_of_ne he] at hs
      exact h.inRange other slot hs

/-- Where no counter is crowded, nobody is counted on a counter that is zero. -/
theorem Tallied.place_ne {s : System S K} (h : s.Tallied) (hroom : s.Uncrowded) {slot : Nat}
    {v : Version} (hzero : s.gate.indicator.count v slot = 0) (thread : Nat) :
    (s.readers thread).place? ≠ some (slot, v) := by
  intro hplace
  have hpos : 0 < (s.counted slot v).ncard :=
    (Set.ncard_pos (h.finite slot v)).mpr ⟨thread, hplace⟩
  have hwrapped : (s.counted slot v).ncard % UInt64.size = 0 := by
    have := congrArg UInt64.toNat ((h.count_eq slot v).symm.trans hzero)
    simpa using this
  rw [Nat.mod_eq_of_lt (hroom slot v)] at hwrapped
  omega

/-- At rest nobody is counted. -/
theorem counted_ofSet (g : TwinSet S K) (slot : Nat) (v : Version) :
    (ofSet g).counted slot v = ∅ := by
  ext thread
  simp [mem_counted, ofSet, ReaderPhase.place?]

/-- On a new gate the tally is right. -/
theorem tallied_ofSet {slots : Nat} {slowDrain : Option Duration} {g : TwinSet S K}
    (hgate : Gate.create slots slowDrain = .ok g.gate) : (ofSet g).Tallied := by
  constructor
  · intro slot v
    rw [counted_ofSet]
    exact Set.finite_empty
  · intro slot v
    rw [counted_ofSet, Set.ncard_empty]
    exact Gate.count_of_create hgate v slot
  · intro thread slot hs
    simp [ofSet, ReaderPhase.slot?] at hs

variable [OrderedSet S K]

/-- Each step keeps the tally. -/
theorem Tallied.of_moves {s t : System S K} {a : Action K} (h : s.Tallied) (hm : s.Moves a t) :
    t.Tallied := by
  cases hm with
  | announce outside inRange =>
    refine h.setReader (by rw [outside]; rfl) ?_
    rintro _ ⟨⟩
    exact inRange
  | count announced => exact h.count announced
  | @select thread slot version counted =>
    refine h.setReader (by rw [counted]; rfl) ?_
    rintro _ ⟨⟩
    exact h.inRange thread slot (by rw [counted]; rfl)
  | look => exact h
  | depart looking => exact h.depart looking
  | _ => exact h.congr rfl (fun _ _ => rfl) rfl

/-- A step brings at most one new reader to a place. -/
theorem Moves.counted_subset {s t : System S K} {a : Action K} (hm : s.Moves a t) (slot : Nat)
    (v : Version) : ∃ thread, t.counted slot v ⊆ insert thread (s.counted slot v) := by
  cases hm with
  | @announce thread => exact ⟨thread, counted_setReader_subset ..⟩
  | @count thread => exact ⟨thread, counted_setReader_subset ..⟩
  | @select thread => exact ⟨thread, counted_setReader_subset ..⟩
  | @depart thread => exact ⟨thread, counted_setReader_subset ..⟩
  | _ => exact ⟨0, Set.subset_insert 0 _⟩

/-- A run from a state in which at most `n` readers are on any counter is too short to crowd
one, if it has fewer steps than there are words left. -/
theorem Tallied.throughout_uncrowded {s : System S K} {n : Nat} {actions : List (Action K)}
    (h : s.Tallied) (hn : ∀ slot v, (s.counted slot v).ncard ≤ n)
    (hlength : n + actions.length < UInt64.size) : s.Throughout Uncrowded actions := by
  intro before hbefore t hrun
  induction before generalizing s n actions with
  | nil =>
    cases Option.some.inj hrun
    intro slot v
    have := hn slot v
    omega
  | cons a before ih =>
    obtain ⟨rest, rfl⟩ := hbefore
    obtain ⟨u, hm, hrun⟩ := run_cons_eq_some hrun
    have hu (slot : Nat) (v : Version) : (u.counted slot v).ncard ≤ n + 1 := by
      obtain ⟨thread, hsub⟩ := hm.counted_subset slot v
      calc (u.counted slot v).ncard
          ≤ (insert thread (s.counted slot v)).ncard :=
            Set.ncard_le_ncard hsub ((h.finite slot v).insert thread)
        _ ≤ (s.counted slot v).ncard + 1 := Set.ncard_insert_le thread _
        _ ≤ n + 1 := Nat.add_le_add_right (hn slot v) 1
    refine ih (h.of_moves hm) hu ?_ (List.prefix_append before rest) hrun
    simp only [List.cons_append, List.length_cons] at hlength
    omega

/-- A run on a new gate is too short to crowd a counter, if it has fewer steps than there are
words. -/
theorem throughout_uncrowded {slots : Nat} {slowDrain : Option Duration} {g : TwinSet S K}
    (hgate : Gate.create slots slowDrain = .ok g.gate) {actions : List (Action K)}
    (hlength : actions.length < UInt64.size) : (ofSet g).Throughout Uncrowded actions := by
  refine (tallied_ofSet hgate).throughout_uncrowded (n := 0) (fun slot v => ?_) (by omega)
  rw [counted_ofSet, Set.ncard_empty]

end System

end LeftRight
