import LeftRight.Proofs.Census
import LeftRight.Session.Gate

/-!
# Ledgers

What is asked of an indicator is written down in a ledger: each request with the version that was
current when it was made, and with its answer. A counter is the number of the arrivals at its place
less the departures from it, up to a multiple of the word size, and by the counters it is told what
each request is answered.
-/

namespace LeftRight

/-- A request to an indicator as it is written down. -/
structure Entry where
  /-- What was asked or done. -/
  request : IndicatorRequest
  /-- The version that was current at that moment. -/
  current : Version
  /-- What it came to. -/
  answer : Answer Empty
  deriving DecidableEq, Repr

/-- The requests to an indicator, in the order in which they were made. -/
abbrev Ledger := List Entry

/-- Whether an entry is an arrival at a place. -/
def Entry.arrivesAt (place : Place) (e : Entry) : Bool :=
  e.request = .arrive place.1 ∧ e.current = place.2

/-- Whether an entry is a departure from a place. -/
def Entry.departsFrom (place : Place) (e : Entry) : Bool := e.request = .depart place.1 place.2

/-- No entry is both. -/
theorem Entry.departsFrom_of_arrivesAt {e : Entry} {place place' : Place}
    (h : e.arrivesAt place = true) : e.departsFrom place' = false := by
  obtain ⟨harrive, -⟩ := of_decide_eq_true h
  simp [departsFrom, harrive]

namespace Ledger

/-- The arrivals at a place, less the departures from it. -/
def tally (place : Place) (ledger : Ledger) : Int :=
  (ledger.countP (Entry.arrivesAt place) : Int) - ledger.countP (Entry.departsFrom place)

/-- The tally up to a multiple of the word size, which is where a counter has come to. -/
def level (place : Place) (ledger : Ledger) : Nat := (ledger.tally place % UInt64.size).toNat

/-- The sum of the counters of a version. -/
def total (slots : Nat) (v : Version) (ledger : Ledger) : Nat :=
  ∑ slot ∈ Finset.range slots, ledger.level (slot, v)

/-- What a request is answered that is made after those of a ledger, of an indicator of so many
slots; an inspection is left out. -/
def answer? (slots : Nat) (ledger : Ledger) (current : Version) :
    IndicatorRequest → Option (Answer Empty)
  | .arrive slot => some (
      if slot < slots then .version current else .fault (.slotOutOfRange slots slot))
  | .depart slot v => some (
      if slot < slots then
        if ledger.level (slot, v) = 0 then .fault (.underflow slot v) else .done
      else .fault (.slotOutOfRange slots slot))
  | .isEmpty v => some (.flag ((List.range slots).all fun slot => ledger.level (slot, v) == 0))
  | .readers v => some (
      if ledger.total slots v < UInt64.size then .count (ledger.total slots v)
      else .fault .totalOverflow)
  | .slots => some (.count slots)
  | .current => some (.version current)
  | .otherVersion => some (.version current.other)
  | .inspection _ => none

/-! ## Counters by the ledger -/

variable {ledger : Ledger} {place : Place} {e : Entry}

theorem tally_concat (place : Place) (ledger : Ledger) (e : Entry) :
    (ledger ++ [e]).tally place = ledger.tally place +
      (if e.arrivesAt place then 1 else 0) - (if e.departsFrom place then 1 else 0) := by
  simp only [tally, List.countP_append, List.countP_singleton]
  split <;> split <;> omega

theorem level_lt (place : Place) (ledger : Ledger) : ledger.level place < UInt64.size := by
  have hsize : (0 : Int) < UInt64.size := by decide
  have hlt := Int.emod_lt_of_pos (ledger.tally place) hsize
  have hnonneg := Int.emod_nonneg (ledger.tally place) hsize.ne'
  rw [level]
  omega

/-- After an arrival the level is one higher, wrapped around. -/
theorem level_concat_of_arrives (harrives : e.arrivesAt place = true) :
    (ledger ++ [e]).level place = (ledger.level place + 1) % UInt64.size := by
  have hdeparts : e.departsFrom place = false := Entry.departsFrom_of_arrivesAt harrives
  rw [level, level, tally_concat, if_pos harrives, if_neg (by simp [hdeparts])]
  change ((_ : Int) % 18446744073709551616).toNat =
    (((_ : Int) % 18446744073709551616).toNat + 1) % 18446744073709551616
  omega

/-- After a departure the level is one lower, wrapped around. -/
theorem level_concat_of_departs (harrives : e.arrivesAt place = false)
    (hdeparts : e.departsFrom place = true) :
    (ledger ++ [e]).level place = (ledger.level place + (UInt64.size - 1)) % UInt64.size := by
  rw [level, level, tally_concat, if_pos hdeparts, if_neg (by simp [harrives])]
  change ((_ : Int) % 18446744073709551616).toNat =
    (((_ : Int) % 18446744073709551616).toNat + (18446744073709551616 - 1)) % 18446744073709551616
  omega

theorem level_concat_of_neither (harrives : e.arrivesAt place = false)
    (hdeparts : e.departsFrom place = false) :
    (ledger ++ [e]).level place = ledger.level place := by
  rw [level, level, tally_concat, if_neg (by simp [harrives]), if_neg (by simp [hdeparts]),
    add_zero, sub_zero]

/-- Whether an indicator has come to where a ledger says. -/
structure Describes (slots : Nat) (ledger : Ledger) (i : Indicator) : Prop where
  /-- It has so many slots. -/
  size : i.size = slots
  /-- Each counter is the number of the arrivals less the departures, wrapped around. -/
  count : ∀ slot < slots, ∀ v, (i.count v slot).toNat = ledger.level (slot, v)

/-- Whether each entry of a ledger was answered as those before it tell. -/
def Answered (slots : Nat) (ledger : Ledger) : Prop :=
  ∀ (before : Ledger) (e : Entry) (after : Ledger), ledger = before ++ e :: after →
    ∀ answer ∈ before.answer? slots e.current e.request, e.answer = answer

variable {slots : Nat} {i : Indicator}

/-- A counter is zero if and only if the ledger says so. -/
theorem Describes.count_eq_zero_iff (h : ledger.Describes slots i) {slot : Nat}
    (hslot : slot < slots) (v : Version) :
    i.count v slot = 0 ↔ ledger.level (slot, v) = 0 := by
  rw [← h.count slot hslot v, ← UInt64.toNat_inj]
  rfl

/-- A version is empty if and only if every counter of it is zero. -/
theorem Describes.isEmpty_iff (h : ledger.Describes slots i) (v : Version) :
    i.isEmpty v = true ↔ ∀ slot < slots, ledger.level (slot, v) = 0 := by
  rw [Indicator.isEmpty_iff]
  constructor
  · exact fun hzero slot hslot => (h.count_eq_zero_iff hslot v).mp (hzero slot)
  · intro hzero slot
    by_cases hslot : slot < slots
    · exact (h.count_eq_zero_iff hslot v).mpr (hzero slot hslot)
    · have hsize : i.slots.length = slots := h.size
      have hnone : i.slots[slot]? = none := List.getElem?_eq_none (by omega)
      rw [Indicator.count, hnone]
      cases v <;> rfl

/-- The readers of a version are the sum of its counters. -/
theorem Describes.total_eq (h : ledger.Describes slots i) (v : Version) :
    i.total v = ledger.total slots v := by
  rw [Indicator.total_eq_sum, h.size, total]
  exact Finset.sum_congr rfl fun slot hslot => h.count slot (Finset.mem_range.mp hslot) v

/-- They are told as long as they fit into a word. -/
theorem Describes.readers_eq (h : ledger.Describes slots i) (v : Version) :
    i.readers v = if ledger.total slots v < UInt64.size then .ok (ledger.total slots v)
      else .error .totalOverflow := by
  rw [Indicator.readers, h.total_eq]

/-- Every request is answered as the requests before it tell. -/
theorem Describes.answer_eq (h : ledger.Describes slots i) (request : IndicatorRequest) :
    ∀ answer ∈ ledger.answer? slots i.current request, (i.perform request).1 = answer := by
  rintro answer hanswer
  cases request with
  | arrive slot =>
    cases hanswer
    by_cases hslot : slot < slots <;>
      simp [Indicator.perform, Indicator.arrive, Answer.ofOutcome, h.size, hslot]
  | depart slot v =>
    cases hanswer
    by_cases hslot : slot < slots
    · have hzero := h.count_eq_zero_iff hslot v
      by_cases hlevel : ledger.level (slot, v) = 0 <;>
        simp [Indicator.perform, Indicator.depart, Answer.ofOutcome, h.size, hslot, hzero, hlevel]
    · simp [Indicator.perform, Indicator.depart, Answer.ofOutcome, h.size, hslot]
  | isEmpty v =>
    cases hanswer
    refine congrArg Answer.flag (Bool.eq_iff_iff.mpr ?_)
    rw [h.isEmpty_iff, List.all_eq_true]
    simp
  | readers v =>
    cases hanswer
    change Answer.ofOutcome Answer.count (i.readers v) = _
    rw [h.readers_eq]
    split <;> rfl
  | slots =>
    cases hanswer
    exact congrArg Answer.count h.size
  | current | otherVersion =>
    cases hanswer
    rfl
  | inspection pretty => cases hanswer

/-- A request that is written down as it is made. -/
def written (request : IndicatorRequest) (i : Indicator) : Entry :=
  ⟨request, i.current, (i.perform request).1⟩

/-- What becomes of the counters by an entry. -/
theorem Describes.concat (h : ledger.Describes slots i) {i' : Indicator} (hsize : i'.size = i.size)
    (hcount : ∀ slot < slots, ∀ v, i'.count v slot =
      if e.arrivesAt (slot, v) then i.count v slot + 1
      else if e.departsFrom (slot, v) then i.count v slot - 1 else i.count v slot) :
    (ledger ++ [e]).Describes slots i' where
  size := hsize.trans h.size
  count slot hslot v := by
    have hlevel := h.count slot hslot v
    have hlt := level_lt (slot, v) ledger
    rw [hcount slot hslot v]
    cases harrives : e.arrivesAt (slot, v) with
    | true =>
      rw [if_pos rfl, level_concat_of_arrives harrives, UInt64.toNat_add, hlevel]
      rfl
    | false =>
      rw [if_neg Bool.false_ne_true]
      cases hdeparts : e.departsFrom (slot, v) with
      | true =>
        rw [if_pos rfl, level_concat_of_departs harrives hdeparts, UInt64.toNat_sub, hlevel,
          Nat.add_comm]
        rfl
      | false =>
        rw [if_neg Bool.false_ne_true, level_concat_of_neither harrives hdeparts, hlevel]

/-- An adjustment at a place, told for every counter. -/
theorem count_adjust_eq {slot : Nat} (hslot : slot < i.size) (v : Version)
    (f : UInt64 → UInt64) (place : Place) :
    (i.adjust slot v f).count place.2 place.1 =
      if (slot, v) = place then f (i.count place.2 place.1) else i.count place.2 place.1 := by
  split
  · rename_i hplace
    subst hplace
    exact Indicator.count_adjust hslot v f
  · rename_i hplace
    refine Indicator.count_adjust_of_ne i f ?_
    rw [← not_and_or]
    exact fun hsame => hplace (Prod.ext hsame.1 hsame.2)

/-- An entry of no place that there is leaves the counters as they are. -/
theorem Describes.concat_of_never (h : ledger.Describes slots i)
    (hnever : ∀ slot < slots, ∀ v, e.arrivesAt (slot, v) = false ∧
      e.departsFrom (slot, v) = false) : (ledger ++ [e]).Describes slots i :=
  h.concat rfl fun slot hslot v => by simp [hnever slot hslot v]

theorem Describes.arrive (h : ledger.Describes slots i) (slot : Nat) :
    (ledger ++ [written (.arrive slot) i]).Describes slots (i.arrive slot).2 := by
  rw [Indicator.arrive]
  split
  · rename_i hslot
    refine h.concat (Indicator.size_adjust ..) fun slot' _ v' => ?_
    rw [count_adjust_eq hslot i.current _ (slot', v')]
    simp [written, Entry.arrivesAt, Entry.departsFrom]
  · rename_i hslot
    refine h.concat_of_never fun slot' hslot' v' => ⟨?_, rfl⟩
    have hne : slot ≠ slot' := fun heq => hslot (by rw [h.size, heq]; exact hslot')
    simp [written, Entry.arrivesAt, hne]

theorem Describes.depart (h : ledger.Describes slots i) (slot : Nat) (v : Version) :
    (ledger ++ [written (.depart slot v) i]).Describes slots (i.depart slot v).2 := by
  rw [Indicator.depart]
  split
  · rename_i hslot
    refine h.concat (Indicator.size_adjust ..) fun slot' _ v' => ?_
    rw [count_adjust_eq hslot v _ (slot', v')]
    simp [written, Entry.arrivesAt, Entry.departsFrom]
  · rename_i hslot
    refine h.concat_of_never fun slot' hslot' v' => ⟨rfl, ?_⟩
    have hne : slot ≠ slot' := fun heq => hslot (by rw [h.size, heq]; exact hslot')
    simp [written, Entry.departsFrom, hne]

/-- After a request the indicator has come to where the ledger says with this request in it. -/
theorem Describes.perform (h : ledger.Describes slots i) (request : IndicatorRequest) :
    (ledger ++ [written request i]).Describes slots (i.perform (K := Empty) request).2 := by
  cases request with
  | arrive slot => exact h.arrive slot
  | depart slot v => exact h.depart slot v
  | isEmpty | readers | slots | current | otherVersion | inspection =>
    exact h.concat_of_never fun slot hslot v => ⟨rfl, rfl⟩

/-- Which version is current makes no difference to the counters. -/
theorem Describes.switch (h : ledger.Describes slots i) (v : Version) :
    ledger.Describes slots (i.switch v) := ⟨h.size, h.count⟩

/-- On a new indicator nothing is counted. -/
theorem describes_of_create {slowDrain : Option Duration} {gate : Gate}
    (h : Gate.create slots slowDrain = .ok gate) : Describes slots [] gate.indicator where
  size := by
    unfold Gate.create Indicator.create at h
    split at h
    · cases h
    · cases h
      exact List.length_replicate
  count slot _ v := by
    rw [Gate.count_of_create h]
    rfl

theorem answered_nil : Answered slots [] := fun before _ _ h => by
  cases before <;> cases h

theorem Answered.concat (h : Answered slots ledger)
    (he : ∀ answer ∈ ledger.answer? slots e.current e.request, e.answer = answer) :
    Answered slots (ledger ++ [e]) := by
  intro before e' after hsplit
  rcases List.eq_nil_or_concat after with rfl | ⟨after, last, rfl⟩
  · obtain ⟨rfl, hlast⟩ := List.append_inj' hsplit rfl
    cases hlast
    exact he
  · rw [List.concat_eq_append, ← List.cons_append, ← List.append_assoc] at hsplit
    obtain ⟨rfl, -⟩ := List.append_inj' hsplit rfl
    exact h before e' after rfl

end Ledger

end LeftRight
