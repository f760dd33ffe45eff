import Mathlib.Algebra.BigOperators.Group.Finset.Piecewise
import Mathlib.Algebra.BigOperators.Intervals
import LeftRight.Proofs.Attendance

/-!
# The number of readers

How many readers are counted under a version, told by the readers and by the counters. A counter
alone says little, as readers are spread over the slots in one way or another; but all counters of a
version together tell the number of its readers, as long as these are fewer than a word can count.
So nothing that can be seen of a gate depends on how they are spread, except for the number of its
slots.
-/

namespace LeftRight

/-- The inspection text of a gate of so many slots at which this can be seen. -/
def View.inspection (slowDrain : Option Duration) (slots : Nat) (view : View) : Inspection :=
  .record "VersionGate" [
    ("selector", .record "CachePadded" [("value", inspect view.visible.index)]),
    ("indicator", .record "ReadIndicator" [
      ("current", .atom view.current.name),
      ("slots", inspect slots),
      ("readers", inspect [view.readersZero, view.readersOne])]),
    ("slow_drain", inspect slowDrain)]

namespace Indicator

variable {i : Indicator} {places : List Place} {v : Version}

@[simp] theorem size_depart (slot : Nat) (v : Version) (i : Indicator) :
    (i.depart slot v).2.size = i.size := by
  unfold depart
  split
  · exact size_adjust ..
  · rfl

/-- Places on existing slots, counted slot by slot. -/
theorem sum_count_eq {n : Nat} (h : ∀ place ∈ places, place.1 < n) (v : Version) :
    ∑ slot ∈ Finset.range n, places.count (slot, v) = (places.map Prod.snd).count v := by
  induction places with
  | nil => simp
  | cons place places ih =>
    have hrest := ih fun place hplace => h place (List.mem_cons_of_mem _ hplace)
    have hslot : place.1 ∈ Finset.range n :=
      Finset.mem_range.mpr (h place (List.mem_cons_self ..))
    have hone (slot : Nat) : (if place == (slot, v) then 1 else 0) =
        if place.1 = slot then (if place.2 = v then 1 else 0) else 0 := by
      obtain ⟨slot', v'⟩ := place
      by_cases hs : slot' = slot <;> by_cases hv : v' = v <;> simp [hs, hv]
    simp only [List.count_cons, List.map_cons, Finset.sum_add_distrib, hrest, hone]
    rw [Finset.sum_ite_eq, if_pos hslot]
    simp

/-- The total of a version is the sum of its counters. -/
theorem total_eq_sum (v : Version) (i : Indicator) :
    i.total v = ∑ slot ∈ Finset.range i.size, (i.count v slot).toNat := by
  unfold total size count
  induction i.slots with
  | nil => rfl
  | cons s slots ih =>
    rw [List.foldr_cons, ih, List.length_cons, Finset.sum_range_succ', add_comm]
    rfl

/-- While no counter of it is crowded, the total of a version is the number of its readers. -/
theorem Accounts.total_eq (h : i.Accounts places)
    (hroom : ∀ slot, places.count (slot, v) < UInt64.size) :
    i.total v = (places.map Prod.snd).count v := by
  rw [total_eq_sum, ← sum_count_eq h.inRange]
  exact Finset.sum_congr rfl fun slot _ => h.toNat_count (hroom slot)

end Indicator

namespace Gated

variable {K C R : Type} [Placed R] [Attended C R]

/-- The versions under which those who are inside are counted. -/
def versions (g : Gated K C) : List Version := g.places.map Prod.snd

/-- How many of those who are inside are counted under a version. -/
def population (v : Version) (g : Gated K C) : Nat := g.versions.count v

/-- The readers of neither version are more than a word can count. -/
def Roomy (g : Gated K C) : Prop := ∀ v, g.population v < UInt64.size

instance (g : Gated K C) : Decidable g.Roomy :=
  decidable_of_iff (g.population .zero < UInt64.size ∧ g.population .one < UInt64.size)
    ⟨fun h v => match v with | .zero => h.1 | .one => h.2, fun h => ⟨h .zero, h .one⟩⟩

/-- The counters are those of the readers inside, and they can count them. -/
structure Serves (g : Gated K C) : Prop where
  /-- The counters are those of the readers inside. -/
  accounted : g.Accounted
  /-- The readers of neither version are more than a word can count. -/
  roomy : g.Roomy

variable {g g' : Gated K C} {v : Version}

theorem versions_eq_map (g : Gated K C) :
    g.versions = g.inside.map fun r => (Placed.place r).2 := by
  rw [versions, places, List.map_map]
  rfl

theorem population_le_length (v : Version) (g : Gated K C) : g.population v ≤ g.inside.length := by
  rw [population, versions_eq_map]
  exact List.count_le_length.trans_eq (List.length_map _)

/-- There is room if fewer readers are inside than there are words. -/
theorem roomy_of_length (h : g.inside.length < UInt64.size) : g.Roomy :=
  fun v => (population_le_length v g).trans_lt h

/-- There is room if nobody is inside. -/
theorem roomy_of_deserted (h : g.inside = []) : g.Roomy := by
  refine roomy_of_length ?_
  rw [h, List.length_nil]
  decide

/-- On no counter are there more readers of a version than everywhere. -/
theorem count_le_population (slot : Nat) (v : Version) (g : Gated K C) :
    g.places.count (slot, v) ≤ g.population v := by
  rw [population, versions, List.count, List.count, List.countP_map]
  refine List.countP_mono_left fun place _ hplace => ?_
  rw [beq_iff_eq] at hplace
  simp [hplace]

theorem Roomy.uncrowded (h : g.Roomy) : g.Uncrowded :=
  fun v slot => (count_le_population slot v g).trans_lt (h v)

/-- What serves still does when the strategy and the trace have changed. -/
theorem Serves.congr (h : g.Serves) (hgate : g'.gate.indicator = g.gate.indicator)
    (hinside : g'.inside = g.inside) : g'.Serves where
  accounted := by
    rw [Accounted, places, hgate, hinside]
    exact h.accounted
  roomy := by
    rw [Roomy]
    unfold population versions places
    rw [hinside]
    exact h.roomy

theorem Serves.total_eq (h : g.Serves) (v : Version) :
    g.gate.indicator.total v = g.population v :=
  h.accounted.total_eq (h.roomy.uncrowded v)

theorem Serves.isEmpty_iff (h : g.Serves) :
    g.gate.indicator.isEmpty v = true ↔ g.population v = 0 := by
  rw [Indicator.isEmpty_iff_total, h.total_eq]

theorem Serves.readers_eq (h : g.Serves) (v : Version) :
    g.gate.indicator.readers v = .ok (g.population v) := by
  rw [Indicator.readers, h.total_eq, if_pos (h.roomy v)]

/-- What can be seen of a gate, by its readers. -/
def viewOf (g : Gated K C) : View where
  visible := g.gate.selector
  current := g.gate.indicator.current
  readersZero := g.population .zero
  readersOne := g.population .one

theorem Serves.view_eq (h : g.Serves) : g.gate.view = .ok g.viewOf := by
  rw [Gate.view, h.readers_eq, h.readers_eq]
  rfl

theorem Serves.inspection_eq (h : g.Serves) :
    g.gate.inspection = .ok (g.viewOf.inspection g.gate.slowDrain g.gate.indicator.size) := by
  rw [Gate.inspection, Indicator.inspection, h.readers_eq, h.readers_eq]
  rfl

/-- Whoever is inside may leave. -/
theorem Serves.depart_ok (h : g.Serves) {r : R} (hr : r ∈ g.inside) :
    (g.gate.indicator.depart (Placed.place r).1 (Placed.place r).2).1 = .ok () :=
  h.accounted.depart_ok (h.roomy.uncrowded _ _) (List.mem_map_of_mem hr)

end Gated

end LeftRight
