import LeftRight.Assigner
import Mathlib.Algebra.Order.Floor.Div
import Mathlib.Data.Int.CardIntervalMod

/-!
# Tickets

Threads that go by tickets are spread evenly. As long as the counter of tickets does not run out,
threads that take theirs one after another hold consecutive numbers, and any so many consecutive
numbers leave each remainder equally often, up to one.
-/

namespace LeftRight

/-- The tickets that so many threads take one after another, where `next` is the next one. The
counter of tickets is a word and wraps around. -/
def takeTickets (next : UInt64) : Nat → List UInt64
  | 0 => []
  | n + 1 => next :: takeTickets (next + 1) n

/-- Tickets are consecutive numbers, if the counter does not wrap around. -/
theorem map_toNat_takeTickets {next : UInt64} {n : Nat} (h : next.toNat + n ≤ UInt64.size) :
    (takeTickets next n).map UInt64.toNat = List.range' next.toNat n := by
  induction n generalizing next with
  | zero => rfl
  | succ n ih =>
    rw [takeTickets, List.map_cons, List.range'_succ]
    by_cases hn : n = 0
    · subst hn
      rfl
    · have hnext : (next + 1).toNat = next.toNat + 1 := by
        rw [UInt64.toNat_add]
        exact Nat.mod_eq_of_lt (by change next.toNat + 1 < UInt64.size; omega)
      rw [ih (by omega), hnext]

/-- A quotient with a remainder is rounded up to the next one. -/
theorem ceilDiv_of_mod_pos {n slots : Nat} (hpos : 0 < slots) (h : 0 < n % slots) :
    n ⌈/⌉ slots = n / slots + 1 := by
  have hparts : n / slots * slots + n % slots = n := Nat.div_add_mod' n slots
  have hlt : n % slots < slots := Nat.mod_lt n hpos
  rw [Nat.ceilDiv_eq_add_pred_div]
  refine Nat.div_eq_of_lt_le ?_ ?_
  · rw [Nat.add_mul]
    omega
  · rw [Nat.add_mul, Nat.add_mul]
    omega

/-- Among consecutive numbers each remainder occurs as often as any other, up to one. -/
theorem countP_range'_mod {slots slot : Nat} (h : slot < slots) (first n : Nat) :
    (List.range' first n).countP (· % slots = slot) = n / slots ∨
      (List.range' first n).countP (· % slots = slot) = n ⌈/⌉ slots := by
  have hpos : 0 < slots := Nat.zero_lt_of_lt h
  -- The numbers that leave the remainder are `shift` beyond the first one, up to full rounds.
  let shift := slot + (slots - 1) * first
  have hround : first + shift = slot + slots * first := by
    have hsplit : slots * first = (slots - 1) * first + first := by
      rw [← Nat.succ_mul, Nat.succ_eq_add_one, Nat.sub_add_cancel hpos]
    omega
  have hiff : ∀ i, (first + i) % slots = slot ↔ i ≡ shift [MOD slots] := by
    intro i
    have hshift : first + shift ≡ slot [MOD slots] := by
      rw [hround]
      exact Nat.add_modulus_mul_modEq_iff.mpr rfl
    constructor
    · intro hi
      have hsame : first + i ≡ slot [MOD slots] := by rw [Nat.ModEq, hi, Nat.mod_eq_of_lt h]
      exact (hsame.trans hshift.symm).add_left_cancel' first
    · intro hi
      have hsame : first + i ≡ slot [MOD slots] := (hi.add_left first).trans hshift
      rwa [Nat.ModEq, Nat.mod_eq_of_lt h] at hsame
  have hcount : (List.range' first n).countP (· % slots = slot) =
      Nat.count (· ≡ shift [MOD slots]) n := by
    rw [List.range'_eq_map_range, List.countP_map, Nat.count]
    exact List.countP_congr fun i _ => by simp [hiff]
  rw [hcount, Nat.count_modEq_card n hpos]
  split
  · rename_i hbefore
    exact Or.inr (ceilDiv_of_mod_pos hpos (Nat.zero_lt_of_lt hbefore)).symm
  · exact Or.inl rfl

/-- The slot of the thread with this ticket, whenever it asks for one. -/
theorem sequential_slot {slots : Nat} (hslots : 0 < slots) (call ticket : Nat) :
    Assigner.sequential.slot call ticket slots = .ok (ticket % slots) :=
  if_neg (Nat.ne_of_gt hslots)

/-- The slots of threads that hold these tickets, each asking with a call of its own. -/
def slotsOf (calls : UInt64 → Nat) (slots : Nat) (tickets : List UInt64) :
    List (Except Fault Nat) :=
  tickets.map fun ticket => Assigner.sequential.slot (calls ticket) ticket.toNat slots

/-- Threads that take their tickets one after another, while the counter does not wrap around, hold
consecutive numbers. Each slot is that of so many of them as a fair share comes to, rounded down or
up, and there are no other slots and no faults. If there are enough slots, nobody shares one. -/
theorem tickets_spread_evenly {slots n : Nat} {first : UInt64} (hslots : 1 ≤ slots)
    (hroom : first.toNat + n ≤ UInt64.size) (calls : UInt64 → Nat) :
    let tickets := takeTickets first n
    let users := slotsOf calls slots tickets
    tickets.map UInt64.toNat = List.range' first.toNat n ∧
      (∀ slot < slots, users.countP (· = .ok slot) = n / slots ∨
        users.countP (· = .ok slot) = n ⌈/⌉ slots) ∧
      (∀ user ∈ users, ∃ slot < slots, user = .ok slot) ∧
      (n ≤ slots → users.Nodup) := by
  intro tickets users
  have htickets : tickets.map UInt64.toNat = List.range' first.toNat n :=
    map_toNat_takeTickets hroom
  have husers : users = (List.range' first.toNat n).map fun ticket => .ok (ticket % slots) := by
    rw [← htickets, List.map_map]
    exact List.map_congr_left fun ticket _ => sequential_slot hslots _ _
  have heven : ∀ slot < slots, users.countP (· = .ok slot) = n / slots ∨
      users.countP (· = .ok slot) = n ⌈/⌉ slots := by
    intro slot hslot
    have hcount : users.countP (· = .ok slot) =
        (List.range' first.toNat n).countP (· % slots = slot) := by
      rw [husers, List.countP_map]
      exact List.countP_congr fun ticket _ => by simp
    rw [hcount]
    exact countP_range'_mod hslot first.toNat n
  have hslot : ∀ user ∈ users, ∃ slot < slots, user = .ok slot := by
    rw [husers]
    intro user huser
    obtain ⟨ticket, -, rfl⟩ := List.mem_map.mp huser
    exact ⟨ticket % slots, Nat.mod_lt _ hslots, rfl⟩
  refine ⟨htickets, heven, hslot, fun hfew => List.nodup_iff_count_le_one.mpr fun user => ?_⟩
  by_cases huser : user ∈ users
  · obtain ⟨slot, hlt, rfl⟩ := hslot user huser
    have hdown : n / slots ≤ 1 := Nat.div_le_of_le_mul (by omega)
    have hup : n ⌈/⌉ slots ≤ 1 := (ceilDiv_le_iff_le_mul hslots).mpr (by omega)
    have hshare : users.count (.ok slot) = users.countP (· = .ok slot) :=
      List.countP_congr fun user _ => by simp
    rcases heven slot hlt with hcount | hcount
    · exact (hshare.trans hcount).trans_le hdown
    · exact (hshare.trans hcount).trans_le hup
  · rw [List.count_eq_zero.mpr huser]
    exact Nat.zero_le 1

/-- The last five tickets on three slots, in the middle of a round, and on eight slots. -/
theorem tickets_spread_evenly_last :
    (18446744073709551611 : UInt64).toNat + 5 ≤ UInt64.size ∧
      slotsOf (fun _ => 0) 3 (takeTickets 18446744073709551611 5) =
        [.ok 2, .ok 0, .ok 1, .ok 2, .ok 0] ∧
      (∀ slot < 3, (slotsOf (fun _ => 0) 3 (takeTickets 18446744073709551611 5)).countP
          (· = .ok slot) = 1 ∨
        (slotsOf (fun _ => 0) 3 (takeTickets 18446744073709551611 5)).countP
          (· = .ok slot) = 2) ∧
      (slotsOf (fun _ => 0) 8 (takeTickets 18446744073709551611 5)).Nodup := by
  have hroom : (18446744073709551611 : UInt64).toNat + 5 ≤ UInt64.size := by decide
  have hthree := tickets_spread_evenly (show 1 ≤ 3 by decide) hroom fun _ => 0
  have height := tickets_spread_evenly (show 1 ≤ 8 by decide) hroom fun _ => 0
  exact ⟨hroom, by decide, hthree.2.1,
    height.2.2.2 (by decide)⟩

end LeftRight
