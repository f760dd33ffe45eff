import LeftRight.Proofs.DisjointWriters
import LeftRight.Workload

/-!
# Schedules of workloads

While the programs of a workload keep to keys of their own, it makes no difference in which order
its writers are scheduled. What a writer is told and what it leaves behind depend on how many turns
it has had, and not on when the others had theirs.
-/

namespace LeftRight

open OrderedSet Std

variable {S K : Type}

/-- Who arrives where nobody is counted departs again, and nobody is counted. -/
theorem Indicator.depart_of_isEmpty {i : Indicator} {slot : Nat}
    (hempty : ∀ v, i.isEmpty v = true) (hlt : slot < i.size) (v : Version) :
    ∃ i', (i.adjust slot v (· + 1)).depart slot v = (.ok (), i') ∧
      (∀ w, i'.isEmpty w = true) ∧ i'.size = i.size := by
  have hzero (w : Version) (s : Nat) : i.count w s = 0 := isEmpty_iff.mp (hempty w) s
  have hlt' : slot < (i.adjust slot v (· + 1)).size := by rwa [size_adjust]
  have hone : (i.adjust slot v (· + 1)).count v slot = 0 + 1 := by
    rw [count_adjust hlt, hzero]
  refine ⟨(i.adjust slot v (· + 1)).adjust slot v (· - 1), ?_,
    fun w => isEmpty_iff.mpr fun s => ?_, ?_⟩
  · rw [depart, if_pos hlt', hone, if_neg (by decide)]
  · by_cases hsame : slot = s ∧ v = w
    · obtain ⟨rfl, rfl⟩ := hsame
      rw [count_adjust hlt', hone]
      rfl
    · have hne : slot ≠ s ∨ v ≠ w := not_and_or.mp hsame
      rw [count_adjust_of_ne _ _ hne, count_adjust_of_ne _ _ hne, hzero]
  · rw [size_adjust, size_adjust]

namespace Workload

section Programs

variable {w : Workload S K}

/-- What a writer has still to do. -/
def programOf (w : Workload S K) (i : Nat) : List (Call K) :=
  (w.writers[i]?.map (·.program)).getD []

/-- What a writer was told, one call after another. -/
def answersTo (w : Workload S K) (i : Nat) : List (Except Fault Bool) :=
  (w.writers[i]?.map (·.answers.reverse)).getD []

variable [OrderedSet S K] {index : Nat}

/-- A writer that has nothing to do lets its turn pass. -/
theorem step_of_nil (h : w.programOf index = []) : w.step index = w := by
  unfold programOf at h
  unfold step
  rcases hwriter : w.writers[index]? with _ | ⟨_ | ⟨c, program⟩, answers⟩
  · rfl
  · rfl
  · rw [hwriter] at h
    cases h

/-- A writer that has something to do makes its next call, and all others are left as they are. -/
theorem step_of_cons {c : Call K} {program : List (Call K)}
    (h : w.programOf index = c :: program) :
    (w.step index).set = (call index c w.set).2 ∧
    (w.step index).programOf index = program ∧
    (w.step index).answersTo index = w.answersTo index ++ [(call index c w.set).1] ∧
    ∀ i, i ≠ index → (w.step index).programOf i = w.programOf i ∧
      (w.step index).answersTo i = w.answersTo i := by
  unfold programOf at h
  rcases hwriter : w.writers[index]? with _ | ⟨_ | ⟨c', program'⟩, answers⟩ <;>
    rw [hwriter] at h <;> cases h
  have hlt : index < w.writers.length := (List.getElem?_eq_some_iff.mp hwriter).1
  unfold programOf answersTo step
  rw [hwriter]
  refine ⟨rfl, ?_, ?_, fun i hi => ?_⟩
  · simp [hlt]
  · simp [hlt]
  · simp [List.getElem?_set_ne (Ne.symm hi)]

end Programs

section Calls

open TwinSet

variable {g : TwinSet S K} {stored : K → Option K}

/-- Who reads where nobody is counted is told what is seen, and nobody is counted afterwards. -/
theorem read_of_isEmpty {α : Type} (hempty : ∀ v, g.gate.indicator.isEmpty v = true)
    (hrange : g.content.assigner.InRange g.gate.indicator.size) (thread : Nat)
    (look : Side → S → List (Event K) × Except Fault α) :
    (read thread look g).1 = (look g.gate.selector g.visibleCopy).2 ∧
      (∀ v, (read thread look g).2.gate.indicator.isEmpty v = true) ∧
      (read thread look g).2.gate.indicator.size = g.gate.indicator.size ∧
      (read thread look g).2.content.assigner = g.content.assigner := by
  obtain ⟨slot, hlt, hslot⟩ := hrange g.content.assigned thread
  obtain ⟨indicator, hdepart, hempty', hsize⟩ :=
    Indicator.depart_of_isEmpty hempty hlt g.gate.indicator.current
  have hleave (noted : List (Event K)) :
      (leave ⟨thread, slot, g.gate.indicator.current, g.gate.selector⟩
        { entered thread slot g with events := (entered thread slot g).events ++ noted }).1 =
      .ok () := congrArg Prod.fst hdepart
  rw [read_of_enter (enter_of_slot hslot hlt) look (hleave _)]
  refine ⟨rfl, fun v => ?_, ?_, rfl⟩
  · change ((entered thread slot g).gate.indicator.depart slot
      g.gate.indicator.current).2.isEmpty v = true
    exact hdepart ▸ hempty' v
  · change ((entered thread slot g).gate.indicator.depart slot
      g.gate.indicator.current).2.size = _
    exact hdepart ▸ hsize

/-- A set on which nobody is counted and both copies store this. -/
structure Ready [OrderedSet S K] [Ord K] [Storing S] (stored : K → Option K)
    (g : TwinSet S K) : Prop where
  /-- What both copies store. -/
  holds : g.Holds stored
  /-- Nobody is counted. -/
  empty : ∀ v, g.gate.indicator.isEmpty v = true
  /-- The slots that readers are given exist. -/
  inRange : g.content.assigner.InRange g.gate.indicator.size

variable [OrderedSet S K] [Ord K] [Storing S]

/-- A new set is ready if its readers are given slots that exist. -/
theorem ready_create {detected : Option Parallelism} {config : Config} {assigner : Assigner}
    {strategy : Strategy} {s : S} (hvalid : Storing.Valid s)
    (hcreate : create detected config assigner strategy ⟨s, s⟩ = .ok g)
    (hrange : assigner.InRange g.gate.indicator.size) : Ready (Storing.stored s) g := by
  obtain ⟨-, -, -, -, hcontent, -⟩ := create_eq_ok hcreate
  refine ⟨holds_of_copies hvalid (by rw [hcontent]), isEmpty_create hcreate, ?_⟩
  rw [hcontent]
  exact hrange

/-- A call tells what it says of that which is stored. -/
theorem Ready.call (h : Ready stored g) (thread : Nat) (c : Call K) :
    (call thread c g).1 = .ok (c.answer (stored c.key)) ∧
      Ready (c.on stored) (call thread c g).2 := by
  obtain ⟨hholds, hempty, hrange⟩ := h
  cases c with
  | change change =>
    have hwaits (g₀ : TwinSet S K) (hpublished : Published change g g₀) :
        (g₀.toggle []).1 = .ok () := hpublished.toggle_of_isEmpty hempty
    obtain ⟨hempty', hsize, hassigner⟩ := write_of_isEmpty hempty change
    have hanswer : (Deed.attempt change [] g).1 = .ok (change.takes (stored change.key)) :=
      hholds.attempt_fst hwaits
    have hholds' : (Deed.attempt change [] g).2.Holds (change.on stored) := hholds.attempt hwaits
    refine ⟨hanswer, hholds', hempty', ?_⟩
    change Assigner.InRange (write change [] g).2.content.assigner _
    rw [hassigner]
    exact hsize ▸ hrange
  | contains key =>
    obtain ⟨hanswer, hempty', hsize, hassigner⟩ := read_of_isEmpty hempty hrange thread
      fun side copy => ([Event.looked key side (contains key copy)], .ok (contains key copy))
    refine ⟨hanswer.trans ?_, hholds.undisturbed (undisturbed_read thread _ ?_ g), hempty', ?_⟩
    · rw [Storing.contains_eq, hholds.visible_eq]
      rfl
    · intro side copy e he
      rw [List.mem_singleton.mp he]
      rfl
    · change Assigner.InRange (TwinSet.contains thread key g).2.content.assigner _
      unfold TwinSet.contains
      rw [hassigner]
      exact hsize ▸ hrange

end Calls

section Schedules

variable [OrderedSet S K] {w : Workload S K} {schedule schedule' : List Nat} {index : Nat}

/-- The calls that are made according to a schedule. -/
def made : List Nat → Workload S K → List (Nat × Call K)
  | [], _ => []
  | index :: schedule, w =>
    ((w.programOf index).head?.map (index, ·)).toList ++ made schedule (w.step index)

theorem made_of_nil (h : w.programOf index = []) :
    made (index :: schedule) w = made schedule w := by
  rw [made, h, step_of_nil h]
  rfl

theorem made_of_cons {call : Call K} {program : List (Call K)}
    (h : w.programOf index = call :: program) :
    made (index :: schedule) w = (index, call) :: made schedule (w.step index) := by
  rw [made, h]
  rfl

/-- Each writer makes as many of its calls as it has turns. -/
theorem callsOf_made (schedule : List Nat) (w : Workload S K) (i : Nat) :
    callsOf i (made schedule w) = (w.programOf i).take (schedule.count i) := by
  induction schedule generalizing w with
  | nil => rfl
  | cons index schedule ih =>
    cases hprogram : w.programOf index with
    | nil =>
      rw [made_of_nil hprogram, ih w]
      rcases eq_or_ne i index with rfl | hi
      · rw [hprogram, List.take_nil, List.take_nil]
      · rw [List.count_cons_of_ne (Ne.symm hi)]
    | cons call program =>
      obtain ⟨-, hrest, -, hothers⟩ := step_of_cons hprogram
      rw [made_of_cons hprogram]
      rcases eq_or_ne i index with rfl | hi
      · rw [callsOf_cons_self, ih, hrest, hprogram, List.count_cons_self, List.take_succ_cons]
      · rw [callsOf_cons_of_ne (Ne.symm hi), ih, (hothers i hi).1,
          List.count_cons_of_ne (Ne.symm hi)]

/-- How far writers get with their programs according to a schedule. -/
def begun (schedule : List Nat) (w : Workload S K) (i : Nat) : List (Call K) :=
  (w.programOf i).take (schedule.count i)

theorem follows_made (schedule : List Nat) (w : Workload S K) :
    Follows (begun schedule w) (made schedule w) := callsOf_made schedule w

variable [Ord K] [Storing S] {stored : K → Option K}

/-- A workload comes to what is told of the calls that are made. -/
theorem Ready.run (h : Ready stored w.set) (schedule : List Nat) :
    Ready (storedAfter (made schedule w) stored) (run schedule w).set ∧
      ∀ i, (run schedule w).answersTo i =
        w.answersTo i ++ (told i (made schedule w) stored).map .ok := by
  induction schedule generalizing w stored with
  | nil => exact ⟨h, fun i => (List.append_nil _).symm⟩
  | cons index schedule ih =>
    have hrun : Workload.run (index :: schedule) w = Workload.run schedule (w.step index) := rfl
    cases hprogram : w.programOf index with
    | nil =>
      rw [hrun, made_of_nil hprogram, step_of_nil hprogram]
      exact ih h
    | cons call program =>
      obtain ⟨hset, -, htold, hothers⟩ := step_of_cons hprogram
      obtain ⟨hanswer, hready⟩ := h.call index call
      rw [← hset] at hready
      obtain ⟨hend, hlater⟩ := ih hready
      rw [hrun, made_of_cons hprogram]
      refine ⟨hend, fun i => (hlater i).trans ?_⟩
      rcases eq_or_ne i index with rfl | hi
      · rw [htold, hanswer, List.append_assoc]
        simp only [told, if_true]
        rfl
      · rw [(hothers i hi).2]
        simp only [told, if_neg (Ne.symm hi)]

/-- If the programs are apart, each writer is told what it is told if nobody else has a turn. -/
theorem answersTo_run_alone (hapart : Apart w.programOf) (hready : Ready stored w.set)
    (schedule : List Nat) (i : Nat) :
    (run schedule w).answersTo i =
      (run (List.replicate (schedule.count i) i) w).answersTo i := by
  have hbegun (schedule : List Nat) : Apart (begun schedule w) :=
    hapart.mono fun _ => List.take_subset ..
  rw [(hready.run _).2, (hready.run _).2, (follows_made _ w).told_eq (hbegun _),
    (follows_made _ w).told_eq (hbegun _), begun, begun, List.count_replicate_self]

/-- If the programs are apart, the set comes to the same whatever the order of the turns is, and so
do both its copies. -/
theorem visibleKeys_run_of_perm [TransOrd K] (hapart : Apart w.programOf)
    (hready : Ready stored w.set) (hperm : schedule.Perm schedule') :
    (run schedule w).set.visibleKeys = (run schedule' w).set.visibleKeys ∧
      (run schedule w).set.SameKeys := by
  have hend := (hready.run schedule).1.holds
  have hend' := (hready.run schedule').1.holds
  have hbegun : Apart (begun schedule w) := hapart.mono fun _ => List.take_subset ..
  have hfollows' : Follows (begun schedule w) (made schedule' w) := by
    intro i
    rw [callsOf_made, begun, hperm.count_eq]
  rw [← (follows_made schedule w).storedAfter_eq hfollows' hbegun] at hend'
  exact ⟨Storing.toList_eq hend.visible_valid hend'.visible_valid
    (hend.visible_eq.trans hend'.visible_eq.symm), hend.sameKeys⟩

end Schedules

end Workload

end LeftRight
