import LeftRight.Proofs.Draining
import Mathlib.Data.Stream.Init
import Mathlib.Order.Nat

/-!
# How long the waits of a toggle take

A wait ends at the first poll at which nobody is counted under its version, and leaves the later
pauses of the schedule to others. As nobody arrives under that version, this is when those have
left who were there at the beginning. A toggle takes as long as its two waits together.
-/

namespace LeftRight

namespace Gated

section Operation

variable {K C : Type}

/-- A pause that does not break off. -/
def Steady (poll : Poll K C) : Prop := ∀ g : Gated K C, (poll g).1 = .ok ()

/-- What a gate has come to after so many pauses. -/
def outlast : Nat → Stream' (Poll K C) → Gated K C → Gated K C
  | 0, _, g => g
  | n + 1, schedule, g => outlast n schedule.tail (schedule.head g).2

variable {schedule : Stream' (Poll K C)} {v : Version} {g : Gated K C}

/-- What holds of all pauses holds of those that are left. -/
theorem forall_get_drop {P : Poll K C → Prop} (h : ∀ n, P (schedule.get n)) (m n : Nat) :
    P ((schedule.drop m).get n) := by
  rw [Stream'.get_drop]
  exact h _

/-- Some pauses after others are the first ones that the schedule has left. -/
theorem outlast_add (m n : Nat) (schedule : Stream' (Poll K C)) (g : Gated K C) :
    outlast (m + n) schedule g = outlast n (schedule.drop m) (outlast m schedule g) := by
  induction m generalizing schedule g with
  | zero =>
    rw [Nat.zero_add]
    rfl
  | succ m ih =>
    rw [Nat.succ_add]
    exact ih schedule.tail _

/-- What each pause keeps holds after any number of them. -/
theorem outlast_kept {P : Gated K C → Prop} (hpolls : ∀ n g, P g → P (schedule.get n g).2)
    (h : P g) (n : Nat) : P (outlast n schedule g) := by
  induction n generalizing schedule g with
  | zero => exact h
  | succ n ih => exact ih (fun m => hpolls (m + 1)) (hpolls 0 g h)

/-- A vain poll is followed by a pause. -/
theorem awaitEmpty_take_succ (hsteady : ∀ n, Steady (schedule.get n))
    (hv : g.gate.indicator.isEmpty v = false) (N count : Nat) :
    g.awaitEmpty v (schedule.take (N + 1)) count =
      (schedule.head g).2.awaitEmpty v (schedule.tail.take N) (count + 1) := by
  have hpoll : schedule.head g = (.ok (), (schedule.head g).2) := Prod.ext (hsteady 0 g) rfl
  rw [Stream'.take_succ, awaitEmpty.eq_def, hv]
  simp only [Bool.false_eq_true, if_false]
  rw [hpoll]

/-- A wait ends at the first poll that finds its version empty, and leaves the later pauses to
others. -/
theorem awaitEmpty_of_first_empty {n : Nat} (hsteady : ∀ n, Steady (schedule.get n))
    (hbefore : ∀ m < n, (outlast m schedule g).gate.indicator.isEmpty v = false)
    (hempty : (outlast n schedule g).gate.indicator.isEmpty v = true) {N : Nat} (hN : n ≤ N)
    (count : Nat) : g.awaitEmpty v (schedule.take N) count =
      (.ok ((schedule.drop n).take (N - n)), (outlast n schedule g).reportDrain v (count + n)) := by
  induction n generalizing schedule g N count with
  | zero => exact awaitEmpty_of_isEmpty hempty
  | succ n ih =>
    obtain ⟨N, rfl⟩ : ∃ M, N = M + 1 := ⟨N - 1, by omega⟩
    have hv : g.gate.indicator.isEmpty v = false := hbefore 0 (Nat.succ_pos n)
    have htail : ∀ m, Steady (schedule.tail.get m) := fun m => hsteady (m + 1)
    have hrest := ih htail (fun m hm => hbefore (m + 1) (by omega)) hempty
      (Nat.le_of_succ_le_succ hN) (count + 1)
    rw [awaitEmpty_take_succ hsteady hv, hrest, Nat.add_sub_add_right, Nat.add_right_comm]
    rfl

/-- A wait that never finds its version empty is not over when the pauses are. -/
theorem awaitEmpty_of_never_empty {N : Nat} (hsteady : ∀ n, Steady (schedule.get n))
    (hnever : ∀ m ≤ N, (outlast m schedule g).gate.indicator.isEmpty v = false) (count : Nat) :
    g.awaitEmpty v (schedule.take N) count =
      (.error .stuck, (outlast N schedule g).record .stuck) := by
  induction N generalizing schedule g count with
  | zero =>
    have hv : g.gate.indicator.isEmpty v = false := hnever 0 (Nat.le_refl 0)
    rw [Stream'.take_zero, awaitEmpty.eq_def, hv]
    rfl
  | succ N ih =>
    have hv : g.gate.indicator.isEmpty v = false := hnever 0 (Nat.zero_le _)
    have htail : ∀ m, Steady (schedule.tail.get m) := fun m => hsteady (m + 1)
    have hrest := ih htail (fun m hm => hnever (m + 1) (by omega)) (count + 1)
    rw [awaitEmpty_take_succ hsteady hv, hrest]
    rfl

/-- Where a toggle begins its second wait, if its first one takes so many pauses. -/
def switched (n : Nat) (schedule : Stream' (Poll K C)) (g : Gated K C) : Gated K C :=
  let next := g.gate.indicator.current.other
  ((outlast n schedule g.firstWait).reportDrain next n).secondWait next

/-- Where a toggle returns, if its waits take so many pauses. -/
def toggled (n₁ n₂ : Nat) (schedule : Stream' (Poll K C)) (g : Gated K C) : Gated K C :=
  (outlast n₂ (schedule.drop n₁) (switched n₁ schedule g)).reportDrain g.gate.indicator.current n₂

end Operation

variable {K C R : Type} [Placed R] [Attended C R]

/-- Nobody inside is counted under a version. -/
def Deserted (v : Version) (g : Gated K C) : Prop := ∀ r ∈ g.inside, (Placed.place r).2 ≠ v

instance (v : Version) (g : Gated K C) : Decidable (g.Deserted v) :=
  inferInstanceAs (Decidable (∀ r ∈ g.inside, _ ≠ v))

/-- A wait for a version, for which those numbers of pauses are enough that are in the set. -/
structure Outlasts (v : Version) (schedule : Stream' (Poll K C)) (g : Gated K C)
    (enough : Set Nat) : Prop where
  /-- No counter of the version ever has more readers than when the wait began. -/
  falling : ∀ n slot, (outlast n schedule g).places.count (slot, v) ≤ g.places.count (slot, v)
  /-- The wait takes the least number of pauses that is enough. -/
  ends : ∀ n, IsLeast enough n → ∀ N, n ≤ N → g.awaitEmpty v (schedule.take N) 0 =
    (.ok ((schedule.drop n).take (N - n)), (outlast n schedule g).reportDrain v n)
  /-- After fewer pauses than are enough the wait goes on. -/
  lasts : ∀ N, (∀ n ∈ enough, N < n) → g.awaitEmpty v (schedule.take N) 0 =
    (.error .stuck, (outlast N schedule g).record .stuck)

variable {schedule : Stream' (Poll K C)} {v : Version} {g g' : Gated K C}

/-- Pauses in which readers arrive and leave come to arrivals and departures. -/
theorem traffic_outlast (horderly : ∀ n, Orderly (schedule.get n)) (n : Nat) (g : Gated K C) :
    g.Traffic (outlast n schedule g) :=
  outlast_kept (P := fun g' => g.Traffic g') (fun m g' h => h.trans (horderly m g')) .refl n

/-- While a version that is not current is waited for, it is empty as soon as nobody inside is
counted under it. -/
theorem isEmpty_outlast_iff (horderly : ∀ n, Orderly (schedule.get n)) (haccounted : g.Accounted)
    (hv : v ≠ g.gate.indicator.current) (hroom : g.Room v) (n : Nat) :
    (outlast n schedule g).gate.indicator.isEmpty v = true ↔ (outlast n schedule g).Deserted v :=
  have htraffic := traffic_outlast horderly n g
  (htraffic.accounted haccounted).isEmpty_iff (htraffic.room hv hroom)

/-- A wait for a version that is not current, and of which no counter is crowded when it begins,
takes until nobody inside is counted under it. -/
theorem outlasts (hsteady : ∀ n, Steady (schedule.get n)) (horderly : ∀ n, Orderly (schedule.get n))
    (haccounted : g.Accounted) (hv : v ≠ g.gate.indicator.current) (hroom : g.Room v) :
    Outlasts v schedule g {n | (outlast n schedule g).Deserted v} := by
  have hempty (n : Nat) := isEmpty_outlast_iff horderly haccounted hv hroom n
  have hoccupied {n : Nat} (hn : ¬ (outlast n schedule g).Deserted v) :
      (outlast n schedule g).gate.indicator.isEmpty v = false :=
    Bool.eq_false_iff.mpr fun h => hn ((hempty n).mp h)
  constructor
  · exact fun n slot => (traffic_outlast horderly n g).count_le hv slot
  · rintro n ⟨hn, hleast⟩ N hN
    have hbefore : ∀ m < n, (outlast m schedule g).gate.indicator.isEmpty v = false :=
      fun m hm => hoccupied fun hdeserted => absurd (hleast hdeserted) (Nat.not_le.mpr hm)
    have hends := awaitEmpty_of_first_empty hsteady hbefore ((hempty n).mpr hn) hN 0
    rwa [Nat.zero_add] at hends
  · intro N hnever
    refine awaitEmpty_of_never_empty hsteady (fun m hm => hoccupied fun hdeserted => ?_) 0
    exact absurd (hnever m hdeserted) (Nat.not_lt.mpr hm)

/-- A toggle, for whose waits those numbers of pauses are enough that are in their sets; that of
the second one depends on how long the first one took. -/
structure Patient (schedule : Stream' (Poll K C)) (g : Gated K C) (enough₁ : Set Nat)
    (enough₂ : Nat → Set Nat) : Prop where
  /-- First the toggle waits for the version that is not current. -/
  first : Outlasts g.gate.indicator.current.other schedule g.firstWait enough₁
  /-- After the switch it waits for the version that was current. -/
  second : ∀ n, IsLeast enough₁ n →
    Outlasts g.gate.indicator.current (schedule.drop n) (switched n schedule g) (enough₂ n)
  /-- It takes the least number of pauses for each, whatever happens later. -/
  returns : ∀ n₁ n₂, IsLeast enough₁ n₁ → IsLeast (enough₂ n₁) n₂ → ∀ N, n₁ + n₂ ≤ N →
    g.toggle (schedule.take N) = (.ok (), toggled n₁ n₂ schedule g)
  /-- After fewer pauses it does not return. -/
  stays : ∀ N, (∀ n₁ n₂, IsLeast enough₁ n₁ → IsLeast (enough₂ n₁) n₂ → N < n₁ + n₂) →
    (g.toggle (schedule.take N)).1 = .error .stuck

/-- What happens to each of some things, and is not undone, has happened to all of them some
time. -/
theorem exists_forall_mem {α : Type} {P : α → Nat → Prop} {l : List α}
    (hkept : ∀ x m n, m ≤ n → P x m → P x n) (h : ∀ x ∈ l, ∃ n, P x n) :
    ∃ n, ∀ x ∈ l, P x n := by
  induction l with
  | nil => exact ⟨0, nofun⟩
  | cons x l ih =>
    obtain ⟨m, hm⟩ := h x (List.mem_cons_self ..)
    obtain ⟨n, hn⟩ := ih fun y hy => h y (List.mem_cons_of_mem x hy)
    refine ⟨max m n, List.forall_mem_cons.mpr ⟨hkept x m _ (Nat.le_max_left ..) hm, ?_⟩⟩
    exact fun y hy => hkept y n _ (Nat.le_max_right ..) (hn y hy)

theorem isLeast_of_forall_lt {P : Nat → Prop} {n : Nat} (hn : P n) (h : ∀ m < n, ¬ P m) :
    IsLeast {n | P n} n :=
  ⟨hn, fun m hm => Nat.not_lt.mp fun hlt => h m hlt hm⟩

theorem exists_isLeast {s : Set Nat} {n : Nat} (h : n ∈ s) : ∃ m, IsLeast s m := by
  classical exact ⟨_, Set.Nonempty.isLeast_natFind ⟨n, h⟩⟩

/-- A toggle takes as long as its two waits together. -/
theorem patient {enough₁ : Set Nat} {enough₂ : Nat → Set Nat}
    (hfirst : Outlasts g.gate.indicator.current.other schedule g.firstWait enough₁)
    (hsecond : ∀ n, IsLeast enough₁ n →
      Outlasts g.gate.indicator.current (schedule.drop n) (switched n schedule g) (enough₂ n)) :
    Patient schedule g enough₁ enough₂ := by
  refine ⟨hfirst, hsecond, ?_, ?_⟩
  · intro n₁ n₂ hn₁ hn₂ N hN
    have hemptied := hfirst.ends n₁ hn₁ N (by omega)
    have hdrained := (hsecond n₁ hn₁).ends n₂ hn₂ (N - n₁) (by omega)
    exact (Toggled.both hemptied hdrained).eq
  · intro N hlate
    by_cases henough : ∃ n₁, IsLeast enough₁ n₁ ∧ n₁ ≤ N
    · obtain ⟨n₁, hn₁, hN⟩ := henough
      have hemptied := hfirst.ends n₁ hn₁ N hN
      have hbroken := (hsecond n₁ hn₁).lasts (N - n₁) fun n hn => by
        obtain ⟨n₂, hn₂⟩ := exists_isLeast hn
        have hlt := hlate n₁ n₂ hn₁ hn₂
        have hle : n₂ ≤ n := hn₂.2 hn
        omega
      rw [(Toggled.second hemptied hbroken).eq]
    · have hbroken := hfirst.lasts N fun n hn => by
        obtain ⟨n₁, hn₁⟩ := exists_isLeast hn
        have hlt : ¬ n₁ ≤ N := fun hle => henough ⟨n₁, hn₁, hle⟩
        have hle : n₁ ≤ n := hn₁.2 hn
        omega
      rw [(Toggled.first hbroken).eq]

/-- If some number of pauses is enough for each wait, the toggle returns, and the rest of the
schedule makes no difference. -/
theorem Patient.exists_returns {enough₁ : Set Nat} {enough₂ : Nat → Set Nat}
    (h : Patient schedule g enough₁ enough₂) (hfirst : enough₁.Nonempty)
    (hsecond : ∀ n, IsLeast enough₁ n → (enough₂ n).Nonempty) :
    ∃ N g', ∀ M, N ≤ M → g.toggle (schedule.take M) = (.ok (), g') := by
  obtain ⟨n, hn⟩ := hfirst
  obtain ⟨n₁, hn₁⟩ := exists_isLeast hn
  obtain ⟨m, hm⟩ := hsecond n₁ hn₁
  obtain ⟨n₂, hn₂⟩ := exists_isLeast hm
  exact ⟨n₁ + n₂, _, h.returns n₁ n₂ hn₁ hn₂⟩

/-- For the waits of a toggle those numbers of pauses are enough after which nobody inside is
counted under their versions, if no counter is crowded of the version it waits for when it begins
to. -/
theorem patient_of_deserted {enough₁ : Set Nat} {enough₂ : Nat → Set Nat}
    (hsteady : ∀ n, Steady (schedule.get n)) (horderly : ∀ n, Orderly (schedule.get n))
    (haccounted : g.Accounted) (hroom : g.Room g.gate.indicator.current.other)
    (hroom' : ∀ n, IsLeast enough₁ n → (switched n schedule g).Room g.gate.indicator.current)
    (henough₁ : enough₁ =
      {n | (outlast n schedule g.firstWait).Deserted g.gate.indicator.current.other})
    (henough₂ : ∀ n, enough₂ n = {m | (outlast m (schedule.drop n) (switched n schedule g)).Deserted
      g.gate.indicator.current}) :
    Patient schedule g enough₁ enough₂ := by
  subst henough₁
  have hstart : g.firstWait.Accounted := haccounted
  refine patient (outlasts hsteady horderly hstart (Version.other_ne _) hroom) fun n hn => ?_
  have hswitched : (switched n schedule g).Accounted := by
    have hreported := factual_accounted _
      ((outlast n schedule g.firstWait).reportDrain g.gate.indicator.current.other n)
      (reportDrain_gate ..) (reportDrain_content ..)
      ((traffic_outlast horderly n g.firstWait).accounted hstart)
    exact Indicator.Accounts.switch hreported _
  rw [henough₂]
  exact outlasts (forall_get_drop hsteady n) (forall_get_drop horderly n) hswitched
    (Version.other_ne _).symm (hroom' n hn)

/-- Whoever is counted under a version that is not current was inside before, so the version is
deserted as soon as those are gone. -/
theorem Traffic.deserted_iff (h : g.Traffic g') (hv : v ≠ g.gate.indicator.current) :
    g'.Deserted v ↔ ∀ r ∈ g.inside, (Placed.place r).2 = v → r ∉ g'.inside := by
  constructor
  · exact fun hdeserted r _ hplace hr => hdeserted r hr hplace
  · exact fun hgone r hr hplace => hgone r (h.mem_of_mem hv hr hplace) hplace hr

end Gated

end LeftRight
