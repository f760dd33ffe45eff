import LeftRight.Proofs.Outlasting
import LeftRight.Proofs.Toggling

/-!
# Patience of writers

A toggle waits for those who came before its switch of versions, and for nobody else. Newcomers
are not counted under the version that is waited for, so they do not make a wait longer, however
many there are and however long they stay. Hence a toggle returns, and a write with it, if those
leave for whom it waits, and it does not while one of them stays.
-/

namespace LeftRight

open Gated

namespace Register

variable {K : Type} {schedule : Stream' (Poll K Register)} {v : Version} {g g' : Gated K Register}
  {r r' r'' : Register}

/-- A register that goes on where another one ends, with nobody new under a version. -/
structure Spares (v : Version) (r r' : Register) : Prop where
  /-- It goes on where the other one ends. -/
  goesOn : r.Extends r'
  /-- Nobody new is counted under the version. -/
  newcomers : ∀ (number : Nat) (visit : Visit), r.visits.length ≤ number →
    r'.visits[number]? = some visit → visit.place.2 ≠ v

/-- Those who were there under a version have left. -/
def Departed (v : Version) (r r' : Register) : Prop :=
  ∀ (number : Nat) (place : Place), r.visits[number]? = some ⟨place, false⟩ → place.2 = v →
    r'.visits[number]? = some ⟨place, true⟩

/-- The numbers of pauses after which those have left who were there under a version. -/
def leftBy (v : Version) (schedule : Stream' (Poll K Register)) (g : Gated K Register) : Set Nat :=
  {n | Departed v g.content (outlast n schedule g).content}

/-- Each of those who are there under a version leaves some time. -/
def AllLeave (v : Version) (schedule : Stream' (Poll K Register)) (g : Gated K Register) : Prop :=
  ∀ (number : Nat) (place : Place), g.content.visits[number]? = some ⟨place, false⟩ → place.2 = v →
    ∃ n, (outlast n schedule g).content.visits[number]? = some ⟨place, true⟩

theorem Spares.refl (v : Version) (r : Register) : Spares v r r where
  goesOn := .refl r
  newcomers number visit hlength hvisit := by
    rw [List.getElem?_eq_none hlength] at hvisit
    cases hvisit

theorem Spares.trans (h : Spares v r r') (h' : Spares v r' r'') : Spares v r r'' where
  goesOn := h.goesOn.trans h'.goesOn
  newcomers number visit hlength hvisit := by
    by_cases hold : number < r'.visits.length
    · obtain ⟨visit', hvisit', hplace, -⟩ :=
        h'.goesOn number _ (List.getElem?_eq_getElem hold)
      obtain rfl := Option.some.inj (hvisit'.symm.trans hvisit)
      rw [hplace]
      exact h.newcomers number _ hlength (List.getElem?_eq_getElem hold)
    · exact h'.newcomers number visit (Nat.not_lt.mp hold) hvisit

/-- No act brings anybody under a version that is not current. -/
theorem spares_act (hv : v ≠ g.gate.indicator.current) (a : Act) :
    Spares v g.content (act g a).content := by
  refine ⟨extends_act g a, fun number visit hlength hvisit => ?_⟩
  have hnone : g.content.visits[number]? = none := List.getElem?_eq_none hlength
  rcases act_spec g a with ⟨-, hcontent⟩ | ⟨slot, version, harrive, hvisits⟩ |
    ⟨number', slot, version, hvisit', -, hvisits⟩
  · rw [hcontent, hnone] at hvisit
    cases hvisit
  · obtain ⟨-, rfl, -⟩ := Indicator.arrive_eq_ok_iff.mp harrive
    rw [hvisits, List.getElem?_append_right hlength] at hvisit
    rw [List.mem_singleton.mp (List.mem_of_getElem? hvisit)]
    exact hv.symm
  · rw [hvisits, List.getElem?_eq_none (by rwa [List.length_set])] at hvisit
    cases hvisit

theorem Receiving.spares {poll : Poll K Register} (h : Receiving poll)
    (hv : v ≠ g.gate.indicator.current) : Spares v g.content (poll g).2.content := by
  refine (h.kept (P := fun g' => g'.gate.indicator.current = g.gate.indicator.current ∧
    Spares v g.content g'.content) ?_ ?_ ⟨rfl, .refl v _⟩).2
  · intro g₁ g₂ hgate hcontent hkept
    rwa [hgate, hcontent]
  · rintro g₁ a ⟨hcurrent, hspares⟩
    exact ⟨(stirs_act g₁ a).current_eq.trans hcurrent,
      hspares.trans (spares_act (hcurrent ▸ hv) a)⟩

/-- Nobody new is counted under a version that is waited for. -/
theorem spares_outlast (hreceiving : ∀ n, Receiving (schedule.get n))
    (hv : v ≠ g.gate.indicator.current) (n : Nat) :
    Spares v g.content (outlast n schedule g).content := by
  refine (outlast_kept (P := fun g' => g'.gate.indicator.current = g.gate.indicator.current ∧
    Spares v g.content g'.content) ?_ ⟨rfl, .refl v _⟩ n).2
  rintro m g₁ ⟨hcurrent, hspares⟩
  have hpoll : Spares v g₁.content (schedule.get m g₁).2.content :=
    (hreceiving m).spares (hcurrent ▸ hv)
  exact ⟨((hreceiving m).orderly g₁).current_eq.trans hcurrent, hspares.trans hpoll⟩

/-- If nobody new came under a version, it is deserted as soon as those have left who were
there. -/
theorem Spares.deserted_iff (h : Spares v g.content g'.content) :
    g'.Deserted v ↔ Departed v g.content g'.content := by
  constructor
  · intro hdeserted number place hvisit hplace
    obtain ⟨⟨place', ended⟩, hvisit', rfl, -⟩ := h.goesOn number _ hvisit
    rw [hvisit']
    cases ended with
    | true => rfl
    | false =>
      have hinside : (⟨place', false⟩ : Visit) ∈ g'.inside :=
        List.mem_filter.mpr ⟨List.mem_of_getElem? hvisit', rfl⟩
      exact absurd hplace (hdeserted _ hinside)
  · intro hdeparted visit hinside hplace
    obtain ⟨hmem, hopen⟩ := List.mem_filter.mp hinside
    obtain ⟨number, hvisit⟩ := List.getElem?_of_mem hmem
    by_cases hold : number < g.content.visits.length
    · obtain ⟨visit', hvisit', hplace', hended⟩ :=
        h.goesOn number _ (List.getElem?_eq_getElem hold)
      obtain rfl := Option.some.inj (hvisit'.symm.trans hvisit)
      rcases hstart : g.content.visits[number] with ⟨place, _ | _⟩ <;>
        rw [hstart] at hplace' hended
      · have hleft := hdeparted number place (List.getElem?_eq_some_iff.mpr ⟨hold, hstart⟩)
          ((congrArg Prod.snd hplace').symm.trans hplace)
        obtain rfl := Option.some.inj (hleft.symm.trans hvisit)
        cases hopen
      · rw [hended rfl] at hopen
        cases hopen
    · exact h.newcomers number visit (Nat.not_lt.mp hold) hvisit hplace

theorem leftBy_eq (hreceiving : ∀ n, Receiving (schedule.get n))
    (hv : v ≠ g.gate.indicator.current) :
    leftBy v schedule g = {n | (outlast n schedule g).Deserted v} :=
  Set.ext fun n => (spares_outlast hreceiving hv n).deserted_iff.symm

theorem extends_outlast (hreceiving : ∀ n, Receiving (schedule.get n)) (n : Nat)
    (g : Gated K Register) : g.content.Extends (outlast n schedule g).content :=
  outlast_kept (P := fun g' => g.content.Extends g'.content)
    (fun m g' h => h.trans ((hreceiving m).extends g')) (.refl _) n

/-- Who has left by some pause has left by every later one. -/
theorem left_mono (hreceiving : ∀ n, Receiving (schedule.get n)) {number m n : Nat} {place : Place}
    (hle : m ≤ n) (h : (outlast m schedule g).content.visits[number]? = some ⟨place, true⟩) :
    (outlast n schedule g).content.visits[number]? = some ⟨place, true⟩ := by
  obtain ⟨k, rfl⟩ := Nat.exists_eq_add_of_le hle
  rw [outlast_add]
  obtain ⟨⟨place', ended⟩, hvisit, rfl, hended⟩ :=
    (extends_outlast (forall_get_drop hreceiving m) k (outlast m schedule g)) number _ h
  obtain rfl : ended = true := hended rfl
  exact hvisit

/-- If each of them leaves some time, they have all left some time. -/
theorem AllLeave.nonempty (h : AllLeave v schedule g)
    (hreceiving : ∀ n, Receiving (schedule.get n)) : (leftBy v schedule g).Nonempty := by
  obtain ⟨n, hn⟩ := exists_forall_mem (l := List.range g.content.visits.length)
    (P := fun number n => ∀ place : Place, g.content.visits[number]? = some ⟨place, false⟩ →
      place.2 = v → (outlast n schedule g).content.visits[number]? = some ⟨place, true⟩)
    (fun number m n hle hm place hvisit hplace =>
      left_mono hreceiving hle (hm place hvisit hplace)) fun number _ => by
    by_cases hthere : ∃ place : Place,
        g.content.visits[number]? = some ⟨place, false⟩ ∧ place.2 = v
    · obtain ⟨place, hvisit, hplace⟩ := hthere
      obtain ⟨n, hn⟩ := h number place hvisit hplace
      refine ⟨n, fun place' hvisit' _ => ?_⟩
      cases hvisit.symm.trans hvisit'
      exact hn
    · exact ⟨0, fun place hvisit hplace => absurd ⟨place, hvisit, hplace⟩ hthere⟩
  refine ⟨n, fun number place hvisit hplace => hn number ?_ place hvisit hplace⟩
  exact List.mem_range.mpr (List.getElem?_eq_some_iff.mp hvisit).1

/-- How long a toggle takes at a gate. -/
structure Awaited (schedule : Stream' (Poll K Register)) (g : Gated K Register) : Prop where
  /-- Each wait takes until those have left who were there under its version when it began. -/
  patient : Patient schedule g (leftBy g.gate.indicator.current.other schedule g.firstWait)
    fun n => leftBy g.gate.indicator.current (schedule.drop n) (switched n schedule g)
  /-- Nobody new is counted under the version that the first wait is for. -/
  first_spares : ∀ n, Spares g.gate.indicator.current.other g.content
    (outlast n schedule g.firstWait).content
  /-- Nobody new is counted under the version that the second wait is for. -/
  second_spares : ∀ n m, Spares g.gate.indicator.current (switched n schedule g).content
    (outlast m (schedule.drop n) (switched n schedule g)).content
  /-- If each of those leaves some time, the toggle returns, whatever newcomers do. -/
  returns : AllLeave g.gate.indicator.current.other schedule g.firstWait →
    (∀ n, IsLeast (leftBy g.gate.indicator.current.other schedule g.firstWait) n →
      AllLeave g.gate.indicator.current (schedule.drop n) (switched n schedule g)) →
    ∃ N g', ∀ M, N ≤ M → g.toggle (schedule.take M) = (.ok (), g')

/-- From whatever state, and whatever visitors come and go during its pauses, this is how long a
toggle takes, if no counter is crowded of the version it waits for when it begins to. -/
theorem awaited (haccounted : g.Accounted) (hsteady : ∀ n, Steady (schedule.get n))
    (hreceiving : ∀ n, Receiving (schedule.get n))
    (hroom : g.Room g.gate.indicator.current.other)
    (hroom' : ∀ n, IsLeast (leftBy g.gate.indicator.current.other schedule g.firstWait) n →
      (switched n schedule g).Room g.gate.indicator.current) : Awaited schedule g := by
  have hrest := forall_get_drop hreceiving
  have hpatient : Patient schedule g
      (leftBy g.gate.indicator.current.other schedule g.firstWait)
      fun n => leftBy g.gate.indicator.current (schedule.drop n) (switched n schedule g) :=
    patient_of_deserted hsteady (fun n => (hreceiving n).orderly) haccounted hroom hroom'
      (leftBy_eq hreceiving (Version.other_ne _))
      fun n => leftBy_eq (hrest n) (Version.other_ne _).symm
  refine ⟨hpatient, ?_, ?_, ?_⟩
  · exact fun n => spares_outlast (g := g.firstWait) hreceiving (Version.other_ne _) n
  · exact fun n m => spares_outlast (hrest n) (Version.other_ne _).symm m
  · intro hleave hleave'
    exact hpatient.exists_returns (hleave.nonempty hreceiving)
      fun n hn => (hleave' n hn).nonempty (hrest n)

end Register

namespace TwinSet

section Visits

variable {S K : Type} {schedule : Stream' (Poll K (Twin S))} {v : Version} {g : TwinSet S K}

/-- The numbers of pauses after which those have left who were inside under a version. -/
def leftBy (v : Version) (schedule : Stream' (Poll K (Twin S))) (g : TwinSet S K) : Set Nat :=
  {n | ∀ r ∈ g.content.inside, r.version = v → r ∉ (outlast n schedule g).content.inside}

/-- Each of those who are inside under a version leaves some time. -/
def AllLeave (v : Version) (schedule : Stream' (Poll K (Twin S))) (g : TwinSet S K) : Prop :=
  ∀ r ∈ g.content.inside, r.version = v → ∃ n, r ∉ (outlast n schedule g).content.inside

theorem leftBy_eq (hvisiting : ∀ n, Visiting (schedule.get n))
    (hv : v ≠ g.gate.indicator.current) :
    leftBy v schedule g = {n | (outlast n schedule g).Deserted v} :=
  Set.ext fun n =>
    ((traffic_outlast (fun m => (hvisiting m).orderly) n g).deserted_iff hv).symm

/-- If each of them leaves some time, they have all left some time. -/
theorem AllLeave.nonempty (h : AllLeave v schedule g)
    (hvisiting : ∀ n, Visiting (schedule.get n)) (hv : v ≠ g.gate.indicator.current) :
    (leftBy v schedule g).Nonempty := by
  refine exists_forall_mem (P := fun r n => r.version = v →
    r ∉ (outlast n schedule g).content.inside) ?_ fun r hr => ?_
  · intro r m n hle hm hversion hinside
    obtain ⟨k, rfl⟩ := Nat.exists_eq_add_of_le hle
    rw [outlast_add] at hinside
    have hbefore := traffic_outlast (fun j => (hvisiting j).orderly) m g
    have hlater := forall_get_drop (P := Orderly) (fun j => (hvisiting j).orderly) m
    -- Nobody comes back under a version that is not current.
    have hback := (traffic_outlast hlater k (outlast m schedule g)).mem_of_mem
      (hbefore.current_eq ▸ hv) hinside hversion
    exact hm hversion hback
  · by_cases hversion : r.version = v
    · obtain ⟨n, hn⟩ := h r hr hversion
      exact ⟨n, fun _ => hn⟩
    · exact ⟨0, fun h => absurd h hversion⟩

end Visits

variable {S K : Type} [OrderedSet S K] {change : Change K} {polls : List (Poll K (Twin S))}
  {schedule : Stream' (Poll K (Twin S))} {g g₀ g₂ : TwinSet S K}

/-- How long a write takes that has published its first change. -/
structure Completes (change : Change K) (schedule : Stream' (Poll K (Twin S)))
    (g g₀ : TwinSet S K) : Prop where
  /-- Each wait takes until those have left who were inside under its version when it began. -/
  patient : Patient schedule g₀ (leftBy g₀.gate.indicator.current.other schedule g₀.firstWait)
    fun n => leftBy g₀.gate.indicator.current (schedule.drop n) (switched n schedule g₀)
  /-- When both waits are over, the second change is made. -/
  replays : ∀ n₁ n₂, IsLeast (leftBy g₀.gate.indicator.current.other schedule g₀.firstWait) n₁ →
    IsLeast (leftBy g₀.gate.indicator.current (schedule.drop n₁) (switched n₁ schedule g₀)) n₂ →
    ∀ N, n₁ + n₂ ≤ N → write change (schedule.take N) g =
      (afterReplay (mutate g.gate.selector change (toggled n₁ n₂ schedule g₀)).1,
        (mutate g.gate.selector change (toggled n₁ n₂ schedule g₀)).2)
  /-- As long as one of the waits is not over, the write does not return. -/
  stays : ∀ N, (∀ n₁ n₂,
      IsLeast (leftBy g₀.gate.indicator.current.other schedule g₀.firstWait) n₁ →
      IsLeast (leftBy g₀.gate.indicator.current (schedule.drop n₁) (switched n₁ schedule g₀)) n₂ →
      N < n₁ + n₂) →
    (write change (schedule.take N) g).1 = .error .stuck
  /-- If each of those leaves some time, the write comes to its second change, whatever newcomers
  do. -/
  returns : AllLeave g₀.gate.indicator.current.other schedule g₀.firstWait →
    (∀ n, IsLeast (leftBy g₀.gate.indicator.current.other schedule g₀.firstWait) n →
      AllLeave g₀.gate.indicator.current (schedule.drop n) (switched n schedule g₀)) →
    ∃ N g₂, ∀ M, N ≤ M → write change (schedule.take M) g =
      (afterReplay (mutate g.gate.selector change g₂).1, (mutate g.gate.selector change g₂).2)

/-- From whatever state, and whatever readers come and go during its pauses, this is how long a
write takes, if no counter is crowded of the version it waits for when it begins to. -/
theorem completes (haccounted : g.Accounted) (hpublished : Published change g g₀)
    (hsteady : ∀ n, Steady (schedule.get n)) (hvisiting : ∀ n, Visiting (schedule.get n))
    (hroom : g₀.Room g₀.gate.indicator.current.other)
    (hroom' : ∀ n, IsLeast (leftBy g₀.gate.indicator.current.other schedule g₀.firstWait) n →
      (switched n schedule g₀).Room g₀.gate.indicator.current) :
    Completes change schedule g g₀ := by
  have hrest := forall_get_drop hvisiting
  have hpatient : Patient schedule g₀
      (leftBy g₀.gate.indicator.current.other schedule g₀.firstWait)
      fun n => leftBy g₀.gate.indicator.current (schedule.drop n) (switched n schedule g₀) :=
    patient_of_deserted hsteady (fun n => (hvisiting n).orderly)
      (hpublished.accounted haccounted) hroom hroom'
      (leftBy_eq hvisiting (Version.other_ne _))
      fun n => leftBy_eq (hrest n) (Version.other_ne _).symm
  refine ⟨hpatient, ?_, ?_, ?_⟩
  · intro n₁ n₂ hn₁ hn₂ N hN
    exact hpublished.write_of_ok (hpatient.returns n₁ n₂ hn₁ hn₂ N hN)
  · intro N hlate
    have hstuck := hpatient.stays N hlate
    rw [hpublished.write_of_error (Prod.ext hstuck rfl)]
  · intro hleave hleave'
    obtain ⟨N, g₂, hreturns⟩ := hpatient.exists_returns
      (hleave.nonempty hvisiting (Version.other_ne _))
      fun n hn => (hleave' n hn).nonempty (hrest n) (Version.other_ne _).symm
    exact ⟨N, g₂, fun M hM => hpublished.write_of_ok (hreturns M hM)⟩

/-- From whatever state of a gate, and whatever visitors come and go during its pauses, each wait
of a toggle takes until those have left who were there under its version when it began, and no
longer; and so it is in a set, where a write that has nothing to publish does not wait. -/
theorem toggle_ends_with_departures :
    (∀ (schedule : Stream' (Poll K Register)) (g : Gated K Register), g.Accounted →
      (∀ n, Steady (schedule.get n)) → (∀ n, Register.Receiving (schedule.get n)) →
      g.Room g.gate.indicator.current.other →
      (∀ n, IsLeast (Register.leftBy g.gate.indicator.current.other schedule g.firstWait) n →
        (switched n schedule g).Room g.gate.indicator.current) →
      Register.Awaited schedule g) ∧
    ∀ (change : Change K) (g : TwinSet S K),
      ((mutate g.gate.selector.other change g).1 ≠ .ok true →
        ∀ polls, write change polls g = mutate g.gate.selector.other change g) ∧
      ∀ (schedule : Stream' (Poll K (Twin S))) (g₀ : TwinSet S K), g.Accounted →
        Published change g g₀ →
        (∀ n, Steady (schedule.get n)) → (∀ n, Visiting (schedule.get n)) →
        g₀.Room g₀.gate.indicator.current.other →
        (∀ n, IsLeast (leftBy g₀.gate.indicator.current.other schedule g₀.firstWait) n →
          (switched n schedule g₀).Room g₀.gate.indicator.current) →
        Completes change schedule g g₀ :=
  ⟨fun _ _ haccounted hsteady hreceiving hroom hroom' =>
      Register.awaited haccounted hsteady hreceiving hroom hroom',
    fun _ _ => ⟨write_of_ineffective,
      fun _ _ haccounted hpublished hsteady hvisiting hroom hroom' =>
        completes haccounted hpublished hsteady hvisiting hroom hroom'⟩⟩

/-- At each pause a visitor comes, and in the first ones those leave who had come before the switch
of versions. -/
def throng : Stream' (Poll Nat Register) := fun n g =>
  let departures : List Register.Act := match n with
    | 1 => [.leave 1]
    | 2 => [.leave 0]
    | 3 => [.leave 2]
    | 4 => [.leave 3]
    | _ => []
  (.ok (), (.arrive 0 :: departures).foldl Register.act g)

/-- At each pause a reader enters, and in the first ones those leave who had entered before the
switch of versions. -/
def lateComers : Stream' (Poll Nat (Twin (SortedList Nat))) := fun n g =>
  let departed := match n with
    | 0 => leaveBy 2 g
    | 1 => leaveBy 6 g
    | 2 => leaveBy 4 g
    | 3 => leaveBy 8 g
    | _ => g
  (.ok (), (enter (8 + 2 * n) departed).2)

theorem receiving_throng (n : Nat) : Register.Receiving (throng.get n) := fun _ => ⟨_, rfl, rfl⟩

theorem visiting_lateComers (n : Nat) : Visiting (lateComers.get n) := by
  intro g
  refine .tail ?_ (.enter (8 + 2 * n))
  split
  · exact visits_leaveBy 2 g
  · exact visits_leaveBy 6 g
  · exact visits_leaveBy 4 g
  · exact visits_leaveBy 8 g
  · exact .refl

/-- The visitor under the version that is not current leaves in the second pause. After the switch
it takes three more until those have left who had come before. -/
theorem isLeast_throng : IsLeast (Register.leftBy .one throng stragglers.firstWait) 2 ∧
    IsLeast (Register.leftBy .zero (throng.drop 2) (switched 2 throng stragglers)) 3 := by
  rw [Register.leftBy_eq receiving_throng (by decide),
    Register.leftBy_eq (forall_get_drop receiving_throng 2) (by decide)]
  constructor
  · exact isLeast_of_forall_lt (by decide +kernel) (by decide +kernel)
  · exact isLeast_of_forall_lt (by decide +kernel) (by decide +kernel)

/-- The reader under the version that is not current leaves in the first pause. After the switch it
takes three more until those have left who had entered before. -/
theorem isLeast_lateComers : IsLeast (leftBy .zero lateComers thirdWrite.firstWait) 1 ∧
    IsLeast (leftBy .one (lateComers.drop 1) (switched 1 lateComers thirdWrite)) 3 := by
  rw [leftBy_eq visiting_lateComers (by decide +kernel),
    leftBy_eq (forall_get_drop visiting_lateComers 1) (by decide +kernel)]
  constructor
  · exact isLeast_of_forall_lt (by decide +kernel) (by decide +kernel)
  · exact isLeast_of_forall_lt (by decide +kernel) (by decide +kernel)

/-- The gate waits for two pauses and then for three more, and the set for one and then for three,
though nobody leaves who came after the switch. A number that is not there is not removed, and
nobody waits. -/
theorem toggle_ends_with_departures_thronged :
    (stragglers.Accounted ∧ (∀ n, Steady (throng.get n)) ∧
      (∀ n, Register.Receiving (throng.get n)) ∧ stragglers.Room .one ∧
      (∀ n, IsLeast (Register.leftBy .one throng stragglers.firstWait) n →
        (switched n throng stragglers).Room .zero) ∧
      (∀ N, 2 + 3 ≤ N →
        stragglers.toggle (throng.take N) = (.ok (), toggled 2 3 throng stragglers)) ∧
      (toggled 2 3 throng stragglers).inside = .replicate 3 ⟨(0, .one), false⟩) ∧
    ((mutate .right (.remove 9) (follow mixedDeeds missedSet)).1 ≠ .ok true ∧
      write (.remove 9) [] (follow mixedDeeds missedSet) =
        mutate .right (.remove 9) (follow mixedDeeds missedSet)) ∧
    (follow mixedDeeds missedSet).Accounted ∧
    Published (.add 3) (follow mixedDeeds missedSet) thirdWrite ∧
    (∀ n, Steady (lateComers.get n)) ∧ (∀ n, Visiting (lateComers.get n)) ∧
    thirdWrite.Room .zero ∧
    (∀ n, IsLeast (leftBy .zero lateComers thirdWrite.firstWait) n →
      (switched n lateComers thirdWrite).Room .one) ∧
    (∀ N, 1 + 3 ≤ N →
      (write (.add 3) (lateComers.take N) (follow mixedDeeds missedSet)).1 = .ok true) ∧
    (toggled 1 3 lateComers thirdWrite).inside.map Reader.thread = [14, 12, 10] := by
  obtain ⟨hn₁, hn₂⟩ := isLeast_throng
  obtain ⟨hm₁, hm₂⟩ := isLeast_lateComers
  have hroom : ∀ n, IsLeast (Register.leftBy .one throng stragglers.firstWait) n →
      (switched n throng stragglers).Room .zero := by
    intro n hn
    obtain rfl := hn.unique hn₁
    exact uncrowded_of_length (by decide +kernel) .zero
  have hroom' : ∀ n, IsLeast (leftBy .zero lateComers thirdWrite.firstWait) n →
      (switched n lateComers thirdWrite).Room .one := by
    intro n hn
    obtain rfl := hn.unique hm₁
    exact uncrowded_of_length (by decide +kernel) .one
  have hstart : stragglers.Room .one := uncrowded_of_length (by decide) .one
  have hstart' : thirdWrite.Room .zero := uncrowded_of_length (by decide +kernel) .zero
  have haccounted : (follow mixedDeeds missedSet).Accounted :=
    accounted_follow byVisitors_mixedDeeds (accounted_create create_missedSet)
  have hsteady : ∀ n, Steady (throng.get n) := fun _ _ => rfl
  have hsteady' : ∀ n, Steady (lateComers.get n) := fun _ _ => rfl
  have hhidden : (follow mixedDeeds missedSet).gate.selector.other = .right := by decide +kernel
  have hrefused : (mutate .right (.remove 9) (follow mixedDeeds missedSet)).1 ≠ .ok true := by
    decide +kernel
  obtain ⟨hgate, hset⟩ := toggle_ends_with_departures (S := SortedList Nat) (K := Nat)
  have hawaited : Register.Awaited throng stragglers :=
    hgate throng stragglers accounted_stragglers hsteady receiving_throng hstart hroom
  have hnothing := (hset (.remove 9) (follow mixedDeeds missedSet)).1
  rw [hhidden] at hnothing
  have hcurrent : thirdWrite.gate.indicator.current = .one := by decide +kernel
  have hcompletes : Completes (.add 3) lateComers (follow mixedDeeds missedSet) thirdWrite := by
    refine (hset (.add 3) _).2 lateComers thirdWrite haccounted published_thirdWrite hsteady'
      visiting_lateComers ?_ ?_ <;> rw [hcurrent]
    · exact hstart'
    · exact hroom'
  refine ⟨⟨accounted_stragglers, hsteady, receiving_throng, hstart, hroom,
    hawaited.patient.returns 2 3 hn₁ hn₂, by decide +kernel⟩, ⟨hrefused, hnothing hrefused []⟩,
    haccounted, published_thirdWrite, hsteady', visiting_lateComers, hstart', hroom',
    fun N hN => ?_, by decide +kernel⟩
  have hreplays := hcompletes.replays 1 3
  rw [hcurrent] at hreplays
  rw [hreplays hm₁ hm₂ N hN]
  decide +kernel

end TwinSet

end LeftRight
