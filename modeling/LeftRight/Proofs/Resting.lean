import LeftRight.Proofs.Patience
import Mathlib.Algebra.Group.Nat.Even

/-!
# Sets at rest

As long as no write unwinds, a set is at rest between its writes: whoever is inside looks at the
visible copy and is counted under the current version, whether it came before a write, while one
waited or after it. The selector and the current version go in step with the number of writes that
had an effect. So the first wait of a write is over at its first look.
-/

namespace LeftRight.TwinSet

open Gated

section Readers

variable {S K : Type}

/-- A set between two writes, after so many that had an effect. -/
structure AtRest (effective : Nat) (g : TwinSet S K) : Prop where
  /-- Whoever is inside looks at the visible copy. -/
  side_eq : ∀ r ∈ g.content.inside, r.side = g.gate.selector
  /-- Whoever is inside is counted under the current version. -/
  version_eq : ∀ r ∈ g.content.inside, r.version = g.gate.indicator.current
  /-- Every counter of the other version is zero. -/
  zero : ∀ slot, g.gate.indicator.count g.gate.indicator.current.other slot = 0
  /-- The left copy is visible exactly while version zero is current. -/
  left_iff : g.gate.selector = .left ↔ g.gate.indicator.current = .zero
  /-- Version zero is current exactly after an even number of writes that had an effect. -/
  zero_iff : g.gate.indicator.current = .zero ↔ Even effective

variable {effective : Nat} {g g' : TwinSet S K}

/-- If all are counted under the current version, every counter of the other one is zero. -/
theorem zero_of_version_eq (haccounted : g.Accounted)
    (h : ∀ r ∈ g.content.inside, r.version = g.gate.indicator.current) (slot : Nat) :
    g.gate.indicator.count g.gate.indicator.current.other slot = 0 := by
  have hempty : g.gate.indicator.isEmpty g.gate.indicator.current.other = true := by
    refine Indicator.Accounts.isEmpty_of_forall haccounted fun place hplace => ?_
    obtain ⟨r, hr, rfl⟩ := List.mem_map.mp hplace
    exact (h r hr).trans_ne (Version.other_ne _).symm
  exact Indicator.isEmpty_iff.mp hempty slot

/-- A set is at rest whose gate and readers are those of one that is. -/
theorem AtRest.congr (h : g.AtRest effective) (hgate : g'.gate = g.gate)
    (hinside : g'.content.inside = g.content.inside) : g'.AtRest effective := by
  constructor
  · rw [hinside, hgate]
    exact h.side_eq
  · rw [hinside, hgate]
    exact h.version_eq
  · rw [hgate]
    exact h.zero
  · rw [hgate]
    exact h.left_iff
  · rw [hgate]
    exact h.zero_iff

/-- Readers that come and go leave a set at rest. -/
theorem AtRest.visits (h : g.AtRest effective) (haccounted : g.Accounted) (hvisits : g.Visits g') :
    g'.AtRest effective := by
  obtain ⟨hselector, hsides⟩ := hvisits.sides
  have hcurrent : g'.gate.indicator.current = g.gate.indicator.current := hvisits.traffic.current_eq
  have hversions : ∀ r ∈ g'.content.inside, r.version = g'.gate.indicator.current := by
    intro r hr
    by_contra hne
    rw [hcurrent] at hne
    exact hne (h.version_eq r (hvisits.traffic.mem_of_mem hne hr rfl))
  refine ⟨fun r hr => ?_, hversions, zero_of_version_eq (hvisits.traffic.accounted haccounted)
    hversions, ?_, ?_⟩
  · rw [hselector]
    rcases hsides r hr with hold | hnew
    · exact h.side_eq r hold
    · exact hnew
  · rw [hselector, hcurrent]
    exact h.left_iff
  · rw [hcurrent]
    exact h.zero_iff

/-- The selector and the current version stay in step if both change. -/
theorem left_iff_of_flipped (h : g.gate.selector = .left ↔ g.gate.indicator.current = .zero)
    (hselector : g'.gate.selector = g.gate.selector.other)
    (hcurrent : g'.gate.indicator.current = g.gate.indicator.current.other) :
    g'.gate.selector = .left ↔ g'.gate.indicator.current = .zero := by
  rw [hselector, hcurrent]
  cases hs : g.gate.selector <;> cases hv : g.gate.indicator.current <;>
    simp_all [Side.other, Version.other]

/-- A new set is at rest. -/
theorem atRest_create {detected : Option Parallelism} {config : Config} {assigner : Assigner}
    {strategy : Strategy} {copies : Copies S}
    (hcreate : create detected config assigner strategy copies = .ok g) : g.AtRest 0 := by
  have haccounted := accounted_create hcreate
  obtain ⟨hselector, hcurrent, -, -, hcontent, -⟩ := create_eq_ok hcreate
  have hinside : g.content.inside = [] := by rw [hcontent]
  have hversions : ∀ r ∈ g.content.inside, r.version = g.gate.indicator.current := by
    simp [hinside]
  refine ⟨?_, hversions, zero_of_version_eq haccounted hversions, iff_of_true hselector hcurrent,
    iff_of_true hcurrent Even.zero⟩
  simp [hinside]

theorem undisturbed_leaveBy (thread : Nat) (g : TwinSet S K) :
    g.Undisturbed (leaveBy thread g) := by
  unfold leaveBy
  split
  · exact undisturbed_leave _ g
  · exact .refl g

end Readers

variable {S K : Type} [OrderedSet S K] {change : Change K} {polls : List (Poll K (Twin S))}
  {effective : Nat} {g g₀ g₂ g' : TwinSet S K}

/-- A publication leaves the indicator as it is. -/
theorem Published.indicator_eq (h : Published change g g₀) :
    g₀.gate.indicator = g.gate.indicator := by
  obtain ⟨g₁, hmutate, rfl⟩ := h
  have hsame : (mutate g.gate.selector.other change g).2.gate.indicator = g.gate.indicator := rfl
  rw [hmutate] at hsame
  exact hsame

/-- Those who are inside after a write that has published its change are those who are inside
after its wait. -/
theorem Published.places_write (h : Published change g g₀) (polls : List (Poll K (Twin S))) :
    (write change polls g).2.places = (g₀.toggle polls).2.places := by
  rcases htoggle : g₀.toggle polls with ⟨fault | _, g₂⟩
  · rw [h.write_of_error htoggle]
  · rw [h.write_of_ok htoggle]
    rfl

/-- The first wait of a write that starts from rest is over at its first look. -/
theorem AtRest.awaitEmpty_firstWait (h : g.AtRest effective) (hpublished : Published change g g₀)
    (polls : List (Poll K (Twin S))) :
    g₀.firstWait.awaitEmpty g₀.gate.indicator.current.other polls 0 =
      (.ok polls, g₀.firstWait.reportDrain g₀.gate.indicator.current.other 0) := by
  refine awaitEmpty_of_isEmpty (Indicator.isEmpty_iff.mpr fun slot => ?_)
  rw [firstWait_gate, hpublished.indicator_eq]
  exact h.zero slot

/-- A wait that ends leaves the set at rest, with the selector and the current version switched. -/
theorem AtRest.toggle (h : g.AtRest effective) (hpublished : Published change g g₀)
    (haccounted : g₀.Accounted) (hpolls : ∀ poll ∈ polls, Visiting poll)
    (hroom : ∀ n, (g₀.toggle (polls.take n)).2.Uncrowded)
    (hwait : g₀.toggle polls = (.ok (), g₂)) : g₂.AtRest (effective + 1) := by
  obtain ⟨hselector, hsides⟩ := sides_of_toggle haccounted hpolls hroom hwait
  obtain ⟨g₁, hreturned⟩ :=
    exists_returned haccounted (fun poll hp => (hpolls poll hp).orderly) hroom hwait
  have hcurrent := hreturned.current
  have hversions : ∀ r ∈ g₂.content.inside, r.version = g₂.gate.indicator.current :=
    fun r hr => (hreturned.newcomers r hr).trans hcurrent.symm
  have hshown : ∀ r ∈ g₂.content.inside, r.side = g₂.gate.selector :=
    fun r hr => (hsides r hr).trans hselector.symm
  rw [hpublished.indicator_eq] at hcurrent
  rw [hpublished.selector_eq] at hselector
  refine ⟨hshown, hversions, zero_of_version_eq hreturned.accounted hversions,
    left_iff_of_flipped h.left_iff hselector hcurrent, ?_⟩
  rw [hcurrent, Nat.even_add_one, ← h.zero_iff]
  cases g.gate.indicator.current <;> decide

/-- A write that starts from rest and returns leaves the set at rest. -/
theorem AtRest.write (h : g.AtRest effective) (haccounted : g.Accounted)
    (hpolls : ∀ poll ∈ polls, Visiting poll)
    (hroom : ∀ n, (write change (polls.take n) g).2.Uncrowded) {hadEffect : Bool}
    (hwrite : write change polls g = (.ok hadEffect, g')) :
    g'.AtRest (effective + if hadEffect then 1 else 0) := by
  have hproceeds := proceeds_write change polls g
  rw [hwrite] at hproceeds
  generalize hresult : (Except.ok hadEffect, g') = result at hproceeds
  cases hproceeds with
  | ineffective ineffective =>
    have hsame : (mutate g.gate.selector.other change g).2.AtRest effective := h.congr rfl rfl
    rw [← hresult] at ineffective hsame
    cases hadEffect with
    | false => exact hsame
    | true => exact absurd rfl ineffective
  | interrupted => cases hresult
  | @replayed g₀ _ published waited =>
    have hroom₀ : ∀ n, (g₀.toggle (polls.take n)).2.Uncrowded := fun n v slot => by
      have hslot := hroom n v slot
      rwa [published.places_write] at hslot
    obtain ⟨hreplay, rfl⟩ := Prod.mk.inj hresult
    obtain rfl := eq_true_of_afterReplay hreplay.symm
    have hrest := h.toggle published (published.accounted haccounted) hpolls hroom₀ waited
    exact hrest.congr rfl rfl

/-- What the writes among some deeds come to, one after another. -/
def outcomes : List (Deed S K) → TwinSet S K → List (Except Fault Bool)
  | [], _ => []
  | .write change polls :: deeds, g =>
    (Deed.attempt change polls g).1 :: outcomes deeds (Deed.attempt change polls g).2
  | .others act _ :: deeds, g => outcomes deeds (act g)

/-- No counter is crowded after any number of the pauses of any write among some deeds. -/
def NeverCrowded : List (Deed S K) → TwinSet S K → Prop
  | [], _ => True
  | .write change polls :: deeds, g =>
    (∀ n, (Deed.attempt change (polls.take n) g).2.Uncrowded) ∧
      NeverCrowded deeds (Deed.attempt change polls g).2
  | .others act _ :: deeds, g => NeverCrowded deeds (act g)

/-- Deeds of which no write unwinds leave a set at rest. -/
theorem AtRest.follow {deeds : List (Deed S K)} (h : g.AtRest effective) (haccounted : g.Accounted)
    (hdeeds : ∀ deed ∈ deeds, deed.ByVisitors)
    (hwhole : ∀ outcome ∈ outcomes deeds g, ∃ hadEffect, outcome = .ok hadEffect)
    (hroom : NeverCrowded deeds g) :
    (follow deeds g).AtRest (effective + (outcomes deeds g).count (.ok true)) := by
  induction deeds generalizing g effective with
  | nil => exact h
  | cons deed deeds ih =>
    have hdeed : deed.ByVisitors := hdeeds deed (List.mem_cons_self ..)
    have hlater : ∀ deed ∈ deeds, deed.ByVisitors :=
      fun deed hmem => hdeeds deed (List.mem_cons_of_mem _ hmem)
    have haccounted' := Deed.accounted_perform hdeed haccounted
    cases deed with
    | write change polls =>
      obtain ⟨hnow, hthen⟩ := hroom
      obtain ⟨hadEffect, houtcome⟩ := hwhole _ (List.mem_cons_self ..)
      have hpolls : ∀ poll ∈ polls.map (·.val), Visiting poll := by
        intro poll hpoll
        obtain ⟨visiting, hmem, rfl⟩ := List.mem_map.mp hpoll
        exact hdeed visiting hmem
      have hnow' : ∀ n, (TwinSet.write change ((polls.map (·.val)).take n) g).2.Uncrowded := by
        intro n
        rw [← List.map_take]
        exact hnow n
      have hrest := ih (h.write haccounted hpolls hnow' (Prod.ext houtcome rfl)) haccounted' hlater
        (fun outcome hmem => hwhole outcome (List.mem_cons_of_mem _ hmem)) hthen
      rw [outcomes, houtcome, List.count_cons]
      cases hadEffect with
      | false => exact hrest
      | true =>
        rw [Nat.add_comm (List.count _ _), ← Nat.add_assoc]
        exact hrest
    | others act undisturbed =>
      exact ih (h.visits haccounted (hdeed g)) haccounted' hlater hwhole hroom

/-- However a set is built, and whatever readers come and go between its writes and while they
wait, as long as the counters can count them: it is at rest between any two writes if none unwinds,
and the first wait of the next one is over at its first look and leaves all pauses to the second. -/
theorem at_rest_between_writes {detected : Option Parallelism} {config : Config}
    {assigner : Assigner} {strategy : Strategy} {copies : Copies S}
    (hcreate : create detected config assigner strategy copies = .ok g) {deeds : List (Deed S K)}
    (hdeeds : ∀ deed ∈ deeds, deed.ByVisitors)
    (hwhole : ∀ outcome ∈ outcomes deeds g, ∃ hadEffect, outcome = .ok hadEffect)
    (hroom : NeverCrowded deeds g) :
    (follow deeds g).AtRest ((outcomes deeds g).count (.ok true)) ∧
    ∀ (change : Change K) (polls : List (Poll K (Twin S))) (g₀ : TwinSet S K),
      Published change (follow deeds g) g₀ →
      g₀.firstWait.awaitEmpty g₀.gate.indicator.current.other polls 0 =
        (.ok polls, g₀.firstWait.reportDrain g₀.gate.indicator.current.other 0) := by
  have hrest : (follow deeds g).AtRest ((outcomes deeds g).count (.ok true)) := by
    have hrun := (atRest_create hcreate).follow (accounted_create hcreate) hdeeds hwhole hroom
    rwa [Nat.zero_add] at hrun
  exact ⟨hrest, fun _ polls _ hpublished => hrest.awaitEmpty_firstWait hpublished polls⟩

/-- It is enough to look at the pauses that there are. -/
theorem uncrowded_attempt_take
    {polls : List { poll : Poll K (Twin S) // Undisturbing poll }}
    (h : ∀ n ≤ polls.length,
      (Deed.attempt change (polls.take n) g).2.content.inside.length < UInt64.size) (n : Nat) :
    (Deed.attempt change (polls.take n) g).2.Uncrowded := by
  rw [List.take_eq_take_min]
  exact uncrowded_of_length (h _ (Nat.min_le_right ..))

theorem undisturbed_enter_two :
    ∀ g : TwinSet (SortedList Nat) Nat, g.Undisturbed (enter 2 g).2 := undisturbed_enter 2

/-- Readers come before a write, during its wait and after it. Two of them stay over its end and
over that of a write that is refused; one stays over the end of the last write. -/
def overstayingDeeds : List (Deed (SortedList Nat) Nat) := [
  .others (fun g => (enter 2 g).2) undisturbed_enter_two,
  .write (.add 5) [⟨fun g => (.ok (), (enter 3 g).2), undisturbed_enter 3⟩,
    ⟨fun g => (.ok (), (enter 4 (leaveBy 2 g)).2),
      fun g => (undisturbed_leaveBy 2 g).trans (undisturbed_enter 4 _)⟩],
  .write (.add 5) [],
  .others (fun g => (enter 5 g).2) (undisturbed_enter 5),
  .write (.remove 5) [⟨fun g => (.ok (), (enter 6 (leaveBy 3 g)).2),
      fun g => (undisturbed_leaveBy 3 g).trans (undisturbed_enter 6 _)⟩,
    ⟨fun g => (.ok (), leaveBy 4 (leaveBy 5 g)),
      fun g => (undisturbed_leaveBy 5 g).trans (undisturbed_leaveBy 4 _)⟩]]

theorem byVisitors_overstayingDeeds : ∀ deed ∈ overstayingDeeds, deed.ByVisitors := by
  simp only [overstayingDeeds, List.forall_mem_cons, List.not_mem_nil, false_implies, implies_true,
    and_true, Deed.ByVisitors]
  refine ⟨fun g => .single (.enter 2), ⟨fun g => .single (.enter 3), fun g => ?_⟩,
    trivial, fun g => .single (.enter 5), fun g => ?_, fun g => ?_⟩
  · exact (visits_leaveBy 2 g).tail (.enter 4)
  · exact (visits_leaveBy 3 g).tail (.enter 6)
  · exact (visits_leaveBy 5 g).trans (visits_leaveBy 4 _)

/-- The set in which a fourth write begins to wait, with the last reader inside the other copy. -/
def fourthWrite : TwinSet (SortedList Nat) Nat :=
  let g := follow overstayingDeeds SetSession.narrowSession.set
  (mutate g.gate.selector.other (.add 7) g).2.publish g.gate.selector.other

/-- The last reader is inside the left copy again, and is counted under version zero. A further
write does not wait for it before it switches versions. -/
theorem at_rest_between_writes_overstayed :
    create none SetSession.narrowConfig .sequential .yielding ⟨{}, {}⟩ =
      .ok SetSession.narrowSession.set ∧
    (∀ deed ∈ overstayingDeeds, deed.ByVisitors) ∧
    outcomes overstayingDeeds SetSession.narrowSession.set = [.ok true, .ok false, .ok true] ∧
    NeverCrowded overstayingDeeds SetSession.narrowSession.set ∧
    (follow overstayingDeeds SetSession.narrowSession.set).content.inside =
      [⟨6, 0, .zero, .left⟩] ∧
    (follow overstayingDeeds SetSession.narrowSession.set).AtRest 2 ∧
    Published (.add 7) (follow overstayingDeeds SetSession.narrowSession.set) fourthWrite ∧
    fourthWrite.firstWait.awaitEmpty .one [] 0 = (.ok [], fourthWrite.firstWait) := by
  have hcreate : create none SetSession.narrowConfig .sequential .yielding ⟨{}, {}⟩ =
    .ok SetSession.narrowSession.set := rfl
  have houtcomes : outcomes overstayingDeeds SetSession.narrowSession.set =
    [.ok true, .ok false, .ok true] := by decide +kernel
  have hroom : NeverCrowded overstayingDeeds SetSession.narrowSession.set :=
    ⟨uncrowded_attempt_take (by decide +kernel), uncrowded_attempt_take (by decide +kernel),
      uncrowded_attempt_take (by decide +kernel), trivial⟩
  have hwhole : ∀ outcome ∈ outcomes overstayingDeeds SetSession.narrowSession.set,
      ∃ hadEffect, outcome = .ok hadEffect := by
    rw [houtcomes]
    simp
  have hpublished : Published (.add 7) (follow overstayingDeeds SetSession.narrowSession.set)
    fourthWrite := published_of_effective (by decide +kernel)
  obtain ⟨hrest, hfirst⟩ :=
    at_rest_between_writes hcreate byVisitors_overstayingDeeds hwhole hroom
  rw [houtcomes] at hrest
  exact ⟨hcreate, byVisitors_overstayingDeeds, houtcomes, hroom, by decide +kernel, hrest,
    hpublished, hfirst (.add 7) [] fourthWrite hpublished⟩

end LeftRight.TwinSet
