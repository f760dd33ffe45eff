import LeftRight.Drain
import LeftRight.Proofs.Occupancy
import Mathlib.Logic.Relation

/-!
# Accounts of readers

The counters of a gate against those who are inside, whatever lies behind it. Each reader inside
has a place, the slot and the version under which it was counted when it arrived, and keeps it
until it leaves. As long as readers give back the places they were given, a counter is the number
of its readers, up to a multiple of the word size.
-/

namespace LeftRight

/-- Where a reader is counted. -/
abbrev Place := Nat × Version

namespace Indicator

/-- The counters are those of readers at these places, up to a multiple of the word size. -/
structure Accounts (i : Indicator) (places : List Place) : Prop where
  /-- A counter is the number of its readers, wrapped around. -/
  count_eq : ∀ slot v, i.count v slot = UInt64.ofNat (places.count (slot, v))
  /-- Readers are counted on slots that exist. -/
  inRange : ∀ place ∈ places, place.1 < i.size

variable {i i' : Indicator} {places places' : List Place} {slot : Nat} {v : Version}

/-- Whoever is counted is counted on a slot that exists, under the current version. -/
theorem arrive_eq_ok_iff :
    i.arrive slot = (.ok v, i') ↔
      slot < i.size ∧ v = i.current ∧ i' = i.adjust slot v (· + 1) := by
  by_cases hslot : slot < i.size
  · rw [arrive, if_pos hslot, Prod.mk.injEq, Except.ok.injEq]
    constructor
    · rintro ⟨rfl, rfl⟩
      exact ⟨hslot, rfl, rfl⟩
    · rintro ⟨-, rfl, rfl⟩
      exact ⟨rfl, rfl⟩
  · rw [arrive, if_neg hslot]
    exact iff_of_false (by simp) fun h => hslot h.1

theorem depart_snd (hslot : slot < i.size) (v : Version) :
    (i.depart slot v).2 = i.adjust slot v (· - 1) := by
  rw [depart, if_pos hslot]

@[simp] theorem current_depart (slot : Nat) (v : Version) (i : Indicator) :
    (i.depart slot v).2.current = i.current := by
  unfold depart
  split <;> rfl

theorem Accounts.perm (h : i.Accounts places) (hp : places.Perm places') : i.Accounts places' where
  count_eq slot v := by rw [h.count_eq, hp.count_eq]
  inRange place hplace := h.inRange place (hp.mem_iff.mpr hplace)

/-- Which version is current makes no difference to who is counted. -/
theorem Accounts.switch (h : i.Accounts places) (v : Version) : (i.switch v).Accounts places :=
  ⟨h.count_eq, h.inRange⟩

/-- Who arrives is counted in addition to the others. -/
theorem Accounts.adjust_add (h : i.Accounts places) (hslot : slot < i.size) :
    (i.adjust slot v (· + 1)).Accounts ((slot, v) :: places) where
  count_eq slot' v' := by
    by_cases hplace : (slot, v) = (slot', v')
    · cases hplace
      rw [count_adjust hslot, h.count_eq, List.count_cons_self, UInt64.ofNat_add]
      rfl
    · have hne : slot ≠ slot' ∨ v ≠ v' := by
        by_contra hc
        push Not at hc
        exact hplace (Prod.ext hc.1 hc.2)
      rw [count_adjust_of_ne _ _ hne, h.count_eq, List.count_cons_of_ne hplace]
  inRange place hplace := by
    rw [size_adjust]
    rcases List.mem_cons.mp hplace with rfl | hplace
    · exact hslot
    · exact h.inRange place hplace

/-- Who leaves is counted no longer, and the others still are. -/
theorem Accounts.adjust_sub (h : i.Accounts ((slot, v) :: places)) :
    (i.adjust slot v (· - 1)).Accounts places where
  count_eq slot' v' := by
    have hslot : slot < i.size := h.inRange (slot, v) (List.mem_cons_self ..)
    by_cases hplace : (slot, v) = (slot', v')
    · cases hplace
      rw [count_adjust hslot, h.count_eq, List.count_cons_self, UInt64.ofNat_add]
      exact UInt64.add_sub_cancel _ _
    · have hne : slot ≠ slot' ∨ v ≠ v' := by
        by_contra hc
        push Not at hc
        exact hplace (Prod.ext hc.1 hc.2)
      rw [count_adjust_of_ne _ _ hne, h.count_eq, List.count_cons_of_ne hplace]
  inRange place hplace := by
    rw [size_adjust]
    exact h.inRange place (List.mem_cons_of_mem _ hplace)

theorem Accounts.arrive (h : i.Accounts places) (harrive : i.arrive slot = (.ok v, i')) :
    i'.Accounts ((slot, v) :: places) := by
  obtain ⟨hslot, -, rfl⟩ := arrive_eq_ok_iff.mp harrive
  exact h.adjust_add hslot

theorem Accounts.depart (h : i.Accounts ((slot, v) :: places)) :
    (i.depart slot v).2.Accounts places := by
  rw [depart_snd (h.inRange (slot, v) (List.mem_cons_self ..))]
  exact h.adjust_sub

/-- A counter that is not crowded is the number of its readers. -/
theorem Accounts.toNat_count (h : i.Accounts places)
    (hroom : places.count (slot, v) < UInt64.size) :
    (i.count v slot).toNat = places.count (slot, v) := by
  rw [h.count_eq, UInt64.toNat_ofNat_of_lt' hroom]

/-- A counter that is not crowded is not zero while somebody is counted on it. -/
theorem Accounts.count_ne_zero (h : i.Accounts places)
    (hroom : places.count (slot, v) < UInt64.size) (hmem : (slot, v) ∈ places) :
    i.count v slot ≠ 0 := by
  intro hzero
  have hcount := h.toNat_count hroom
  rw [hzero] at hcount
  exact (List.count_pos_iff.mpr hmem).ne hcount

/-- Who is counted on a counter that is not crowded may leave. -/
theorem Accounts.depart_ok (h : i.Accounts places)
    (hroom : places.count (slot, v) < UInt64.size) (hmem : (slot, v) ∈ places) :
    (i.depart slot v).1 = .ok () := by
  rw [Indicator.depart, if_pos (h.inRange _ hmem), if_neg (h.count_ne_zero hroom hmem)]

/-- A version under which nobody is counted is empty. -/
theorem Accounts.isEmpty_of_forall (h : i.Accounts places) (hv : ∀ place ∈ places, place.2 ≠ v) :
    i.isEmpty v = true := by
  rw [isEmpty_iff]
  intro slot
  have hnot : (slot, v) ∉ places := fun hmem => hv _ hmem rfl
  rw [h.count_eq, List.count_eq_zero.mpr hnot]
  rfl

/-- While no counter of it is crowded, a version is empty exactly if nobody is counted under
it. -/
theorem Accounts.isEmpty_iff_forall (h : i.Accounts places)
    (hroom : ∀ slot, places.count (slot, v) < UInt64.size) :
    i.isEmpty v = true ↔ ∀ place ∈ places, place.2 ≠ v := by
  refine ⟨?_, h.isEmpty_of_forall⟩
  rintro hempty ⟨slot, v'⟩ hmem rfl
  exact h.count_ne_zero (hroom slot) hmem (isEmpty_iff.mp hempty slot)

end Indicator

/-- Nobody is counted on a new gate. -/
theorem Gate.accounts_of_create {slots : Nat} {slowDrain : Option Duration} {gate : Gate}
    (h : Gate.create slots slowDrain = .ok gate) : gate.indicator.Accounts [] where
  count_eq slot v := Gate.count_of_create h v slot
  inRange := nofun

/-- Readers of which each is counted somewhere. -/
class Placed (R : Type) where
  /-- Where a reader is counted. -/
  place : R → Place

/-- Something that knows which readers are inside. -/
class Attended (C : Type) (R : outParam Type) where
  /-- Those who are inside. -/
  inside : C → List R

namespace Gated

variable {K C R : Type} [Placed R] [Attended C R]

/-- Those who are inside. -/
def inside (g : Gated K C) : List R := Attended.inside g.content

/-- Where those who are inside are counted. -/
def places (g : Gated K C) : List Place := g.inside.map Placed.place

/-- The counters are those of the readers inside. -/
def Accounted (g : Gated K C) : Prop := g.gate.indicator.Accounts g.places

/-- There are fewer readers on each counter of a version than there are words. -/
def Room (v : Version) (g : Gated K C) : Prop := ∀ slot, g.places.count (slot, v) < UInt64.size

/-- There are fewer readers on each counter than there are words. -/
def Uncrowded (g : Gated K C) : Prop := ∀ v, g.Room v

/-- What can happen at a time at which no writer switches versions: a reader arrives, one leaves, or
neither. Nothing is said about the rest. -/
inductive Stirs (g : Gated K C) : Gated K C → Prop
  /-- A reader arrives, and is counted where it learns. -/
  | arrive {g' : Gated K C} (r : R)
      (counted : g.gate.indicator.arrive (Placed.place r).1 =
        (.ok (Placed.place r).2, g'.gate.indicator))
      (inside : g'.inside.Perm (r :: g.inside)) : Stirs g g'
  /-- A reader leaves, and is counted no longer where it was. -/
  | leave {g' : Gated K C} (r : R)
      (retracted : g'.gate.indicator =
        (g.gate.indicator.depart (Placed.place r).1 (Placed.place r).2).2)
      (inside : g.inside.Perm (r :: g'.inside)) : Stirs g g'
  /-- Nobody arrives or leaves. -/
  | rest {g' : Gated K C} (indicator : g'.gate.indicator = g.gate.indicator)
      (inside : g'.inside = g.inside) : Stirs g g'

/-- What can happen while no writer switches versions. -/
def Traffic : Gated K C → Gated K C → Prop := Relation.ReflTransGen Stirs

/-- While a writer pauses, readers arrive and leave, and no versions are switched. -/
def Orderly (poll : Poll K C) : Prop := ∀ g : Gated K C, g.Traffic (poll g).2

variable {g g' : Gated K C}

/-- No counter is crowded if there are fewer readers inside than there are words. -/
theorem uncrowded_of_length (h : g.inside.length < UInt64.size) : g.Uncrowded := by
  intro v slot
  have hcount : g.places.count (slot, v) ≤ g.places.length := List.count_le_length
  have hlength : g.places.length = g.inside.length := List.length_map ..
  omega

/-- While no counter of it is crowded, a version is empty exactly if nobody inside is counted under
it. -/
theorem Accounted.isEmpty_iff (h : g.Accounted) {v : Version} (hroom : g.Room v) :
    g.gate.indicator.isEmpty v = true ↔ ∀ r ∈ g.inside, (Placed.place r).2 ≠ v := by
  rw [Indicator.Accounts.isEmpty_iff_forall h hroom]
  exact List.forall_mem_map

theorem Stirs.current_eq (h : g.Stirs g') :
    g'.gate.indicator.current = g.gate.indicator.current := by
  cases h with
  | arrive r counted =>
    obtain ⟨-, -, hindicator⟩ := Indicator.arrive_eq_ok_iff.mp counted
    rw [hindicator, Indicator.current_adjust]
  | leave r retracted => rw [retracted, Indicator.current_depart]
  | rest indicator => rw [indicator]

/-- Who arrives and who leaves is accounted for. -/
theorem Stirs.accounted (h : g.Stirs g') (hg : g.Accounted) : g'.Accounted := by
  cases h with
  | arrive r counted inside =>
    exact (Indicator.Accounts.arrive hg counted).perm (inside.map Placed.place).symm
  | leave r retracted inside =>
    rw [Accounted, retracted]
    exact (hg.perm (inside.map Placed.place)).depart
  | rest indicator inside =>
    rw [Accounted, places, indicator, inside]
    exact hg

/-- Nobody arrives under a version that is not current. -/
theorem Stirs.mem_of_mem (h : g.Stirs g') {v : Version} (hv : v ≠ g.gate.indicator.current)
    {r : R} (hr : r ∈ g'.inside) (hplace : (Placed.place r).2 = v) : r ∈ g.inside := by
  cases h with
  | arrive r' counted inside =>
    obtain ⟨-, hcurrent, -⟩ := Indicator.arrive_eq_ok_iff.mp counted
    rcases List.mem_cons.mp (inside.mem_iff.mp hr) with rfl | hr
    · exact absurd (hplace.symm.trans hcurrent) hv
    · exact hr
  | leave r' _ inside => exact inside.mem_iff.mpr (List.mem_cons_of_mem r' hr)
  | rest _ inside => exact inside ▸ hr

/-- There are no more readers on a counter of a version that is not current than there were. -/
theorem Stirs.count_le (h : g.Stirs g') {v : Version} (hv : v ≠ g.gate.indicator.current)
    (slot : Nat) : g'.places.count (slot, v) ≤ g.places.count (slot, v) := by
  cases h with
  | arrive r counted inside =>
    obtain ⟨-, hcurrent, -⟩ := Indicator.arrive_eq_ok_iff.mp counted
    have hplaces : g'.places.Perm (Placed.place r :: g.places) := inside.map Placed.place
    have hne : Placed.place r ≠ (slot, v) := fun he => hv (by rw [← hcurrent, he])
    rw [hplaces.count_eq, List.count_cons_of_ne hne]
  | leave r _ inside =>
    have hplaces : g.places.Perm (Placed.place r :: g'.places) := inside.map Placed.place
    rw [hplaces.count_eq]
    exact List.count_le_count_cons
  | rest _ inside => rw [places, inside, places]

theorem Traffic.current_eq (h : g.Traffic g') :
    g'.gate.indicator.current = g.gate.indicator.current := by
  induction h with
  | refl => rfl
  | tail _ hstirs ih => exact hstirs.current_eq.trans ih

theorem Traffic.accounted (h : g.Traffic g') (hg : g.Accounted) : g'.Accounted := by
  induction h with
  | refl => exact hg
  | tail _ hstirs ih => exact hstirs.accounted ih

theorem Traffic.mem_of_mem (h : g.Traffic g') {v : Version} (hv : v ≠ g.gate.indicator.current)
    {r : R} (hr : r ∈ g'.inside) (hplace : (Placed.place r).2 = v) : r ∈ g.inside := by
  induction h with
  | refl => exact hr
  | tail htraffic hstirs ih =>
    refine ih (hstirs.mem_of_mem ?_ hr hplace)
    rwa [Traffic.current_eq htraffic]

theorem Traffic.count_le (h : g.Traffic g') {v : Version} (hv : v ≠ g.gate.indicator.current)
    (slot : Nat) : g'.places.count (slot, v) ≤ g.places.count (slot, v) := by
  induction h with
  | refl => exact Nat.le_refl _
  | tail htraffic hstirs ih =>
    refine (hstirs.count_le ?_ slot).trans ih
    rwa [Traffic.current_eq htraffic]

/-- A version that is not current stays as far from being crowded as it is. -/
theorem Traffic.room (h : g.Traffic g') {v : Version} (hv : v ≠ g.gate.indicator.current)
    (hroom : g.Room v) : g'.Room v :=
  fun slot => (h.count_le hv slot).trans_lt (hroom slot)

end Gated

end LeftRight
