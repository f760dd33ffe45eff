import Mathlib.Data.Finset.Card
import LeftRight.Proofs.Ledger

/-!
# Outstanding arrivals

If every departure hands back an earlier arrival, each a different one, then the arrivals that have
not been handed back are what a counter counts, as long as they are fewer than a word can count.
Nobody departs from a counter that is zero then, and a version is empty if and only if nobody who
arrived under it is outstanding.
-/

namespace LeftRight.Ledger

variable {ledger : Ledger} {partner : Nat → Nat} {slots slot n k : Nat} {v : Version}
  {place : Place} {p : Entry → Bool}

/-- The numbers of the entries of a kind among the first ones. -/
def numbers (p : Entry → Bool) (n : Nat) (ledger : Ledger) : Finset Nat :=
  (Finset.range n).filter fun k => ledger[k]?.any p

/-- The arrivals at a place that have not been handed back by the departures among the first
entries, where `partner` tells which arrival a departure hands back. -/
def outstanding (partner : Nat → Nat) (place : Place) (n : Nat) (ledger : Ledger) : Finset Nat :=
  ledger.numbers (Entry.arrivesAt place) n \
    (ledger.numbers (Entry.departsFrom place) n).image partner

/-- Whether every departure hands back an earlier arrival on a slot that there is, under the version
of that arrival, and no two departures the same one. -/
structure Paired (slots : Nat) (ledger : Ledger) (partner : Nat → Nat) : Prop where
  /-- A departure hands back an arrival. -/
  handsBack : ∀ k slot v, ledger[k]?.any (Entry.departsFrom (slot, v)) = true →
    slot < slots ∧ partner k < k ∧ ledger[partner k]?.any (Entry.arrivesAt (slot, v)) = true
  /-- No arrival is handed back twice. -/
  distinct : ∀ k k' place place', ledger[k]?.any (Entry.departsFrom place) = true →
    ledger[k']?.any (Entry.departsFrom place') = true → partner k = partner k' → k = k'

/-- Whether at each moment those outstanding at a place are fewer than a word can count. -/
def Roomy (slots : Nat) (ledger : Ledger) (partner : Nat → Nat) : Prop :=
  ∀ n, ∀ slot < slots, ∀ v, (ledger.outstanding partner (slot, v) n).card < UInt64.size

theorem mem_numbers : k ∈ ledger.numbers p n ↔ k < n ∧ ledger[k]?.any p = true := by
  rw [numbers, Finset.mem_filter, Finset.mem_range]

theorem card_numbers (p : Entry → Bool) (n : Nat) (ledger : Ledger) :
    (ledger.numbers p n).card = (ledger.take n).countP p := by
  induction n with
  | zero => rfl
  | succ n ih =>
    rw [numbers] at ih ⊢
    rw [Finset.range_add_one, Finset.filter_insert, List.take_add_one, List.countP_append, ← ih]
    cases hlast : ledger[n]?.any p with
    | true =>
      obtain ⟨e, he, hp⟩ := (Option.any_eq_true _ _).mp hlast
      rw [if_pos rfl, Finset.card_insert_of_notMem (by simp), he]
      simp [hp]
    | false =>
      rw [if_neg Bool.false_ne_true]
      cases he : ledger[n]? with
      | none => rfl
      | some e =>
        rw [he] at hlast
        simpa using hlast

/-- Fewer are outstanding than are written down. -/
theorem card_outstanding_le (partner : Nat → Nat) (place : Place) (n : Nat) (ledger : Ledger) :
    (ledger.outstanding partner place n).card ≤ ledger.length := by
  refine (Finset.card_le_card Finset.sdiff_subset).trans ?_
  rw [card_numbers]
  exact List.countP_le_length.trans (List.length_take_le' ..)

/-- There is room if no more is written down than a word can count. -/
theorem roomy_of_length (h : ledger.length < UInt64.size) (slots : Nat) (partner : Nat → Nat) :
    Roomy slots ledger partner :=
  fun n slot _ v => (card_outstanding_le partner (slot, v) n ledger).trans_lt h

/-- The arrivals at a place less the departures from it are those outstanding. -/
theorem Paired.tally_take (h : Paired slots ledger partner) (place : Place) (n : Nat) :
    tally place (ledger.take n) = (ledger.outstanding partner place n).card := by
  have hsub : (ledger.numbers (Entry.departsFrom place) n).image partner ⊆
      ledger.numbers (Entry.arrivesAt place) n := by
    intro k hk
    obtain ⟨j, hj, rfl⟩ := Finset.mem_image.mp hk
    obtain ⟨hlt, hdeparts⟩ := mem_numbers.mp hj
    obtain ⟨-, hearlier, harrives⟩ := h.handsBack j place.1 place.2 hdeparts
    exact mem_numbers.mpr ⟨hearlier.trans hlt, harrives⟩
  have hinj : Set.InjOn partner (ledger.numbers (Entry.departsFrom place) n) :=
    fun j hj j' hj' => h.distinct j j' place place (mem_numbers.mp hj).2 (mem_numbers.mp hj').2
  have hcard := Finset.card_sdiff_add_card_eq_card hsub
  rw [Finset.card_image_of_injOn hinj, card_numbers, card_numbers] at hcard
  rw [tally, outstanding]
  omega

/-- A counter is the number of those outstanding. -/
theorem Paired.level_take (h : Paired slots ledger partner) (hroom : Roomy slots ledger partner)
    (hslot : slot < slots) (v : Version) (n : Nat) :
    level (slot, v) (ledger.take n) = (ledger.outstanding partner (slot, v) n).card := by
  have hlt := hroom n slot hslot v
  rw [level, h.tally_take]
  change ((_ : Int) % 18446744073709551616).toNat = _
  change _ < 18446744073709551616 at hlt
  omega

theorem Paired.level_take_eq_zero_iff (h : Paired slots ledger partner)
    (hroom : Roomy slots ledger partner) (hslot : slot < slots) (v : Version) (n : Nat) :
    level (slot, v) (ledger.take n) = 0 ↔ ledger.outstanding partner (slot, v) n = ∅ := by
  rw [h.level_take hroom hslot, Finset.card_eq_zero]

/-- Before it departs, whoever departs is outstanding. -/
theorem Paired.mem_outstanding (h : Paired slots ledger partner)
    (hdeparts : ledger[k]?.any (Entry.departsFrom (slot, v)) = true) :
    partner k ∈ ledger.outstanding partner (slot, v) k := by
  obtain ⟨-, hearlier, harrives⟩ := h.handsBack k slot v hdeparts
  refine Finset.mem_sdiff.mpr ⟨mem_numbers.mpr ⟨hearlier, harrives⟩, fun hback => ?_⟩
  obtain ⟨j, hj, hsame⟩ := Finset.mem_image.mp hback
  obtain ⟨hlt, hdeparts'⟩ := mem_numbers.mp hj
  exact hlt.ne (h.distinct j k _ _ hdeparts' hdeparts hsame)

/-- What was answered at a moment is told by what had been written down before. -/
theorem Answered.answer_eq (h : Answered slots ledger) {e : Entry} (he : ledger[k]? = some e) :
    ∀ answer ∈ answer? slots (ledger.take k) e.current e.request, e.answer = answer := by
  obtain ⟨hlt, rfl⟩ := List.getElem?_eq_some_iff.mp he
  refine h (ledger.take k) _ (ledger.drop (k + 1)) ?_
  rw [← List.drop_eq_getElem_cons hlt, List.take_append_drop]

/-- What follows for the answers if every departure hands back an arrival. -/
structure Balanced (slots : Nat) (ledger : Ledger) (partner : Nat → Nat) : Prop where
  /-- No departure breaks off. -/
  depart : ∀ (k : Nat) (e : Entry) (slot : Nat) (v : Version), ledger[k]? = some e →
    e.request = .depart slot v → e.answer = .done
  /-- At each moment a counter is the number of those outstanding. -/
  level : ∀ (n slot : Nat) (v : Version), slot < slots →
    level (slot, v) (ledger.take n) = (ledger.outstanding partner (slot, v) n).card
  /-- A version is said to be empty if and only if nobody who arrived under it is outstanding. -/
  isEmpty : ∀ (k : Nat) (e : Entry) (v : Version), ledger[k]? = some e → e.request = .isEmpty v →
    e.answer = .flag (decide (∀ slot < slots, ledger.outstanding partner (slot, v) k = ∅))

theorem Paired.balanced (h : Paired slots ledger partner) (hroom : Roomy slots ledger partner)
    (hanswered : Answered slots ledger) : Balanced slots ledger partner where
  depart k e slot v he hrequest := by
    have hdeparts : ledger[k]?.any (Entry.departsFrom (slot, v)) = true := by
      simp [he, Entry.departsFrom, hrequest]
    obtain ⟨hslot, -⟩ := h.handsBack k slot v hdeparts
    have hlevel : Ledger.level (slot, v) (ledger.take k) ≠ 0 := by
      rw [Ne, h.level_take_eq_zero_iff hroom hslot]
      exact Finset.ne_empty_of_mem (h.mem_outstanding hdeparts)
    refine hanswered.answer_eq he _ ?_
    rw [hrequest, answer?, if_pos hslot, if_neg hlevel]
    rfl
  level n slot v hslot := h.level_take hroom hslot v n
  isEmpty k e v he hrequest := by
    have hflag := hanswered.answer_eq he _ (by rw [hrequest, answer?]; rfl)
    rw [hflag]
    refine congrArg Answer.flag (Bool.eq_iff_iff.mpr ?_)
    rw [List.all_eq_true, decide_eq_true_iff]
    simp only [List.mem_range, beq_iff_eq]
    exact forall₂_congr fun slot hslot => h.level_take_eq_zero_iff hroom hslot v k

/-- At the end too a version is empty if and only if nobody who arrived under it is outstanding. -/
theorem Paired.isEmpty_iff (h : Paired slots ledger partner) (hroom : Roomy slots ledger partner)
    {i : Indicator} (hdescribes : Describes slots ledger i) (v : Version) :
    i.isEmpty v = true ↔
      ∀ slot < slots, ledger.outstanding partner (slot, v) ledger.length = ∅ := by
  rw [hdescribes.isEmpty_iff]
  refine forall₂_congr fun slot hslot => ?_
  rw [← h.level_take_eq_zero_iff hroom hslot, List.take_length]

end LeftRight.Ledger
