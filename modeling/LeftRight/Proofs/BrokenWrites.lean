import LeftRight.OrderedSet.Rigged
import LeftRight.Proofs.DisjointWriters

/-!
# What a broken write leaves

A write can break off in its first change, in either of its two waits, and in its second change,
which also has to have an effect. What it has done until then stays done, so each of these exits
leaves something else: whether new readers look at the other copy, whether they are counted under
the other version, and what has become of both copies. None of them leaves anything in the way of
the next write but the readers who are inside.
-/

namespace LeftRight

open OrderedSet

namespace Gated

variable {K C R : Type} [Placed R] [Attended C R] {polls rest : List (Poll K C)} {v w : Version}
  {count : Nat} {outcome : Except Fault (List (Poll K C))} {g g₁ g' g'' : Gated K C}

/-- What can happen while no counter changes but by readers: they arrive and leave, or whatever
happens leaves those inside and the counters as they were, be it that versions are switched. -/
def Turnover : Gated K C → Gated K C → Prop :=
  Relation.ReflTransGen fun g g' =>
    g.Stirs g' ∨ g'.gate.indicator.slots = g.gate.indicator.slots ∧ g'.inside = g.inside

theorem Turnover.aside (h : g.Turnover g')
    (hslots : g''.gate.indicator.slots = g'.gate.indicator.slots)
    (hinside : g''.inside = g'.inside) : g.Turnover g'' :=
  h.tail (.inr ⟨hslots, hinside⟩)

theorem Traffic.turnover (h : g.Traffic g') : g.Turnover g' :=
  Relation.ReflTransGen.mono (fun _ _ => Or.inl) _ _ h

/-- If the counters change with the readers only, the accounts stay right. -/
theorem Turnover.accounted (h : g.Turnover g') (hg : g.Accounted) : g'.Accounted := by
  induction h with
  | refl => exact hg
  | @tail g₁ g₂ _ hstep ih =>
    rcases hstep with hstirs | ⟨hslots, hinside⟩
    · exact hstirs.accounted ih
    · have hcount (v : Version) (slot : Nat) :
          g₂.gate.indicator.count v slot = g₁.gate.indicator.count v slot := by
        rw [Indicator.count, hslots, Indicator.count]
      have hplaces : g₂.places = g₁.places := congrArg (List.map Placed.place) hinside
      refine ⟨fun slot v => ?_, fun place hplace => ?_⟩
      · rw [hcount, hplaces, ih.count_eq]
      · rw [Indicator.size, hslots]
        exact ih.inRange place (hplaces ▸ hplace)

theorem factual_turnover (g : Gated K C) : Factual (fun g' => g.Turnover g') :=
  fun g₁ g₂ hgate hcontent h => h.aside (by rw [hgate]) (by rw [inside, hcontent]; rfl)

/-- A wait leaves the counters to the readers. -/
theorem turnover_awaitEmpty (hpolls : ∀ poll ∈ polls, Orderly poll) (v : Version) (count : Nat)
    (g : Gated K C) : g.Turnover (g.awaitEmpty v polls count).2 :=
  awaitEmpty_kept (factual_turnover g)
    (fun poll hp g₁ h => h.trans (hpolls poll hp g₁).turnover) v count .refl

/-- Whether it returns or breaks off, a toggle leaves the counters to the readers. -/
theorem turnover_toggle (hpolls : ∀ poll ∈ polls, Orderly poll) (g : Gated K C) :
    g.Turnover (g.toggle polls).2 :=
  toggle_kept (factual_turnover g) (fun _ _ h => h.aside rfl rfl)
    (fun poll hp g₁ h => h.trans (hpolls poll hp g₁).turnover) .refl

/-- No versions are switched in a wait. -/
theorem current_awaitEmpty (hpolls : ∀ poll ∈ polls, Orderly poll)
    (h : g.awaitEmpty v polls count = (outcome, g')) :
    g'.gate.indicator.current = g.gate.indicator.current := by
  have hkept := awaitEmpty_kept
    (P := fun g' => g'.gate.indicator.current = g.gate.indicator.current)
    (fun _ _ hgate _ => (congrArg (·.indicator.current) hgate).trans)
    (fun poll hp g₁ => (hpolls poll hp g₁).current_eq.trans) v count rfl
  rwa [h] at hkept

/-- In the second wait that version is current to which the toggle has switched. -/
theorem current_secondWait (hpolls : ∀ poll ∈ polls, Orderly poll)
    (emptied : g.awaitEmpty v polls count = (.ok rest, g₁))
    (h : (g₁.secondWait v).awaitEmpty w rest 0 = (outcome, g')) :
    g'.gate.indicator.current = v := by
  obtain ⟨used, rfl, -⟩ := exists_used_of_awaitEmpty emptied
  exact current_awaitEmpty (fun poll hp => hpolls poll (List.mem_append_right used hp)) h

/-- A toggle that returns has switched versions. -/
theorem current_toggle (hpolls : ∀ poll ∈ polls, Orderly poll)
    (h : g.toggle polls = (.ok (), g')) :
    g'.gate.indicator.current = g.gate.indicator.current.other := by
  have htoggled := g.toggled_toggle polls
  rw [h] at htoggled
  cases htoggled with
  | both emptied drained => exact current_secondWait hpolls emptied drained

end Gated

namespace TwinSet

open Gated

variable {S K : Type} [OrderedSet S K] {change : Change K} {polls : List (Poll K (Twin S))}
  {g g₀ g₂ g' : TwinSet S K} {fault : Fault}

/-- Where a write can break off. -/
inductive Exit where
  /-- In the change of the hidden copy. -/
  | firstChange
  /-- In the wait before versions are switched. -/
  | firstWait
  /-- In the wait after versions are switched. -/
  | secondWait
  /-- In the change of the copy that was visible, or after that had no effect. -/
  | replay
  deriving DecidableEq, Repr

/-- Whether a write breaks off there, for this reason. -/
inductive BreaksAt (change : Change K) (polls : List (Poll K (Twin S))) (g : TwinSet S K) :
    Exit → Fault → Prop
  /-- The change of the hidden copy breaks off. -/
  | firstChange {fault : Fault} {copy : S}
      (broken : apply change g.hiddenCopy = (.error fault, copy)) :
      BreaksAt change polls g .firstChange fault
  /-- The hidden copy was changed and published, and the first wait breaks off. -/
  | firstWait {g₀ g' : TwinSet S K} {fault : Fault} (published : Published change g g₀)
      (broken : g₀.firstWait.awaitEmpty g₀.gate.indicator.current.other polls 0 =
        (.error fault, g')) : BreaksAt change polls g .firstWait fault
  /-- The first wait ends, versions are switched and the second wait breaks off. -/
  | secondWait {g₀ g₁ g' : TwinSet S K} {rest : List (Poll K (Twin S))} {fault : Fault}
      (published : Published change g g₀)
      (emptied : g₀.firstWait.awaitEmpty g₀.gate.indicator.current.other polls 0 = (.ok rest, g₁))
      (broken : (g₁.secondWait g₀.gate.indicator.current.other).awaitEmpty
        g₀.gate.indicator.current rest 0 = (.error fault, g')) :
      BreaksAt change polls g .secondWait fault
  /-- Both waits end, and the change of the copy that was visible breaks off or has no effect. -/
  | replay {g₀ g₂ : TwinSet S K} {second : Except Fault Bool} {copy : S} {fault : Fault}
      (published : Published change g g₀) (waited : g₀.toggle polls = (.ok (), g₂))
      (changed : apply change g.visibleCopy = (second, copy))
      (broken : afterReplay second = .error fault) : BreaksAt change polls g .replay fault

/-- What a write has left that broke off there, for this reason. -/
inductive Leaves (change : Change K) (g g' : TwinSet S K) : Exit → Fault → Prop
  /-- The hidden copy is as far as the change came, and all else is as it was. -/
  | firstChange {fault : Fault}
      (hidden : apply change g.hiddenCopy = (.error fault, g'.hiddenCopy))
      (visible : g'.visibleCopy = g.visibleCopy) (gate : g'.gate = g.gate)
      (strategy : g'.strategy = g.strategy) (inside : g'.content.inside = g.content.inside)
      (changes : g'.changes = g.changes ++ [.changed change g.gate.selector.other none]) :
      Leaves change g g' .firstChange fault
  /-- The change is published, and new readers are counted as before. -/
  | firstWait {fault : Fault} (exposed : Exposed change g g')
      (current : g'.gate.indicator.current = g.gate.indicator.current) :
      Leaves change g g' .firstWait fault
  /-- The change is published, and new readers are counted under the other version. -/
  | secondWait {fault : Fault} (exposed : Exposed change g g')
      (current : g'.gate.indicator.current = g.gate.indicator.current.other) :
      Leaves change g g' .secondWait fault
  /-- The change is published, was made to each copy once, and new readers are counted under the
  other version. -/
  | replay {second : Except Fault Bool} {fault : Fault} (broken : afterReplay second = .error fault)
      (visible : apply change g.hiddenCopy = (.ok true, g'.visibleCopy))
      (hidden : apply change g.visibleCopy = (second, g'.hiddenCopy))
      (selector : g'.gate.selector = g.gate.selector.other)
      (current : g'.gate.indicator.current = g.gate.indicator.current.other)
      (changes : g'.changes = g.changes ++ [.changed change g.gate.selector.other (some true),
        .changed change g.gate.selector second.toOption]) : Leaves change g g' .replay fault

/-- The copy at which new readers look after a write that broke off there: the visible one, or that
which was hidden, as the change has left it. -/
def Exit.shown (exit : Exit) (change : Change K) (g : TwinSet S K) : S :=
  match exit with
  | firstChange => g.visibleCopy
  | firstWait | secondWait | replay => (apply change g.hiddenCopy).2

theorem Leaves.visibleCopy_eq {exit : Exit} (h : Leaves change g g' exit fault) :
    g'.visibleCopy = exit.shown change g := by
  cases h with
  | firstChange _ visible => exact visible
  | firstWait exposed => exact (congrArg Prod.snd exposed.visible).symm
  | secondWait exposed => exact (congrArg Prod.snd exposed.visible).symm
  | replay _ visible => exact (congrArg Prod.snd visible).symm

/-- A write that breaks off somewhere does not return, and leaves there what it has done. -/
theorem BreaksAt.leaves {exit : Exit} (h : BreaksAt change polls g exit fault)
    (hpolls : ∀ poll ∈ polls, Undisturbing poll) (horderly : ∀ poll ∈ polls, Orderly poll) :
    (write change polls g).1 = .error fault ∧
      Leaves change g (write change polls g).2 exit fault := by
  cases h with
  | firstChange broken =>
    have hfirst : (mutate g.gate.selector.other change g).1 = .error fault :=
      congrArg Prod.fst broken
    obtain ⟨happlied, hvisible, hgate, hchanges⟩ := mutate_hidden (g := g) (Prod.ext hfirst rfl)
    rw [write_of_ineffective (by simp [hfirst])]
    exact ⟨hfirst, .firstChange happlied hvisible hgate rfl rfl hchanges⟩
  | firstWait published broken =>
    have hwait := (Toggled.first broken).eq
    have hexposed := published.exposed_toggle hpolls
    have hcurrent := current_awaitEmpty horderly broken
    rw [firstWait_gate, published.indicator_eq] at hcurrent
    rw [published.write_of_error hwait]
    rw [hwait] at hexposed
    exact ⟨rfl, .firstWait hexposed hcurrent⟩
  | secondWait published emptied broken =>
    have hwait := (Toggled.second emptied broken).eq
    have hexposed := published.exposed_toggle hpolls
    have hcurrent := current_secondWait horderly emptied broken
    rw [published.indicator_eq] at hcurrent
    rw [published.write_of_error hwait]
    rw [hwait] at hexposed
    exact ⟨rfl, .secondWait hexposed hcurrent⟩
  | @replay g₀ g₂ second copy _ published waited changed broken =>
    have hexposed := published.exposed_toggle hpolls
    have hcurrent := current_toggle horderly waited
    rw [waited] at hexposed
    rw [published.indicator_eq] at hcurrent
    rcases hmutate : mutate g.gate.selector change g₂ with ⟨outcome, g'⟩
    obtain ⟨hvisible, hhidden, hgate, hchanges⟩ := hexposed.replayed hmutate
    obtain rfl : outcome = second := congrArg Prod.fst (hhidden.symm.trans changed)
    have hselector := (congrArg Gate.selector hgate).trans hexposed.selector
    rw [published.write_of_ok waited, hmutate]
    exact ⟨broken, .replay broken hvisible hhidden hselector (hgate ▸ hcurrent) hchanges⟩

/-- A write that does not return breaks off somewhere. -/
theorem exists_breaksAt (hpolls : ∀ poll ∈ polls, Undisturbing poll)
    (h : (write change polls g).1 = .error fault) : ∃ exit, BreaksAt change polls g exit fault := by
  have hproceeds := proceeds_write change polls g
  generalize write change polls g = result at h hproceeds
  cases hproceeds with
  | ineffective => exact ⟨_, .firstChange (Prod.ext h rfl)⟩
  | @interrupted g₀ _ _ published broken =>
    obtain rfl := Except.error.inj h
    have htoggled := g₀.toggled_toggle polls
    rw [broken] at htoggled
    cases htoggled with
    | first broken => exact ⟨_, .firstWait published broken⟩
    | second emptied broken => exact ⟨_, .secondWait published emptied broken⟩
  | replayed published waited =>
    rw [published.apply_of_toggle hpolls waited] at h
    exact ⟨_, .replay published waited rfl h⟩

theorem Published.turnover (h : Published change g g₀) : g.Turnover g₀ := by
  obtain ⟨g₁, hmutate, rfl⟩ := h
  have hchanged : g.Turnover (mutate g.gate.selector.other change g).2 := .single (.inr ⟨rfl, rfl⟩)
  rw [hmutate] at hchanged
  exact hchanged.aside rfl rfl

/-- However a write ends, it leaves the counters to the readers. -/
theorem turnover_write (hpolls : ∀ poll ∈ polls, Orderly poll) (change : Change K)
    (g : TwinSet S K) : g.Turnover (write change polls g).2 := by
  have hproceeds := proceeds_write change polls g
  generalize write change polls g = result at hproceeds ⊢
  cases hproceeds with
  | ineffective => exact .single (.inr ⟨rfl, rfl⟩)
  | @interrupted g₀ _ _ published broken =>
    have hwaited := published.turnover.trans (turnover_toggle hpolls g₀)
    rwa [broken] at hwaited
  | @replayed g₀ _ published waited =>
    have hwaited := published.turnover.trans (turnover_toggle hpolls g₀)
    rw [waited] at hwaited
    exact Turnover.aside hwaited rfl rfl

/-- What a write returns if nothing holds it up: what its changes tell. -/
def unhindered (change : Change K) (g : TwinSet S K) : Except Fault Bool :=
  match (apply change g.hiddenCopy).1 with
  | .ok true => afterReplay (apply change g.visibleCopy).1
  | first => first

/-- When nobody is counted, a write comes to its end without a pause. -/
theorem write_fst_of_isEmpty (hempty : ∀ v, g.gate.indicator.isEmpty v = true)
    (change : Change K) : (write change [] g).1 = unhindered change g := by
  have hfirst : (mutate g.gate.selector.other change g).1 = (apply change g.hiddenCopy).1 := rfl
  have hproceeds := proceeds_write change [] g
  generalize write change [] g = result at hproceeds ⊢
  cases hproceeds with
  | ineffective ineffective =>
    rw [hfirst] at ineffective
    rw [hfirst, unhindered]
    split
    · exact absurd ‹_› ineffective
    · rfl
  | interrupted published broken =>
    have hends := published.toggle_of_isEmpty hempty
    rw [broken] at hends
    cases hends
  | replayed published waited =>
    have heffect := published.mutate_fst
    rw [hfirst] at heffect
    rw [published.apply_of_toggle (by simp) waited, unhindered, heffect]

/-- A write that broke off there, for this reason, has left this of a set. -/
structure Abandoned (change : Change K) (exit : Exit) (fault : Fault) (g g' : TwinSet S K) :
    Prop where
  /-- The copies, the selector and the current version are as the write has left them there. -/
  leaves : Leaves change g g' exit fault
  /-- The counters have changed with the readers who have come and gone, and not otherwise. -/
  turnover : g.Turnover g'
  /-- They are those of the readers inside. -/
  balanced : g'.Balanced
  /-- As long as nobody writes, whoever reads is told what is seen in the copy that is shown. -/
  reads : ∀ {g'' : TwinSet S K}, g'.Undisturbed g'' → ∀ {thread : Nat}, g''.Admits thread →
    ∀ {α : Type} (look : Side → S → List (Event K) × Except Fault α),
    (read thread look g'').1 = (look g''.gate.selector (exit.shown change g)).2
  /-- Who takes the set apart for the copy that readers were using is given that one. -/
  intoInner : ∀ {g'' : TwinSet S K}, g'.Undisturbed g'' → g''.content.inside = [] →
    ∀ mayStay, (SetSession.perform .intoInner { set := g'', mayStay }).1 =
      .keys (OrderedSet.toList (exit.shown change g))
  /-- The next write returns what its changes tell, and does not pause if the readers have left. -/
  next : ∀ {g'' : TwinSet S K}, g'.Visits g'' → g''.content.inside = [] →
    ∀ change' : Change K, (write change' [] g'').1 = unhindered change' g''
  /-- If there are readers inside, the next write waits for them, and for nobody else. -/
  patient : ∀ {g'' g₀ : TwinSet S K} {change' : Change K} {schedule : Stream' (Poll K (Twin S))},
    g'.Visits g'' → Published change' g'' g₀ → (∀ n, Steady (schedule.get n)) →
    (∀ n, Visiting (schedule.get n)) → g₀.Room g₀.gate.indicator.current.other →
    (∀ n, IsLeast (leftBy g₀.gate.indicator.current.other schedule g₀.firstWait) n →
      (switched n schedule g₀).Room g₀.gate.indicator.current) →
    Completes change' schedule g'' g₀

/-- It is enough that the accounts were right, and that readers have changed the counters. -/
theorem Leaves.abandoned {exit : Exit} (h : Leaves change g g' exit fault)
    (hturnover : g.Turnover g') (hg : g.Accounted) : Abandoned change exit fault g g' := by
  have haccounted := hturnover.accounted hg
  refine {
    leaves := h
    turnover := hturnover
    balanced := .of_accounted haccounted
    reads := @fun g'' hundisturbed thread hadmits α look => ?_
    intoInner := @fun g'' hundisturbed hinside mayStay => ?_
    next := @fun g'' hvisits hinside change' => ?_
    patient := @fun g'' g₀ change' schedule hvisits hpublished hsteady hvisiting hroom hroom' =>
      completes (hvisits.traffic.accounted haccounted) hpublished hsteady hvisiting hroom hroom' }
  · rw [read_of_admits hadmits, hundisturbed.visibleCopy, h.visibleCopy_eq]
  · have hshown := hundisturbed.visibleCopy.trans h.visibleCopy_eq
    simp [SetSession.perform, takeApart, hinside, hshown]
  · have hbalanced := Balanced.of_accounted (hvisits.traffic.accounted haccounted)
    exact write_fst_of_isEmpty (hbalanced.isEmpty hinside) change'

/-- A set that differs in its strategy, and in what is noted of that. -/
structure ButStrategy (g g' : TwinSet S K) : Prop where
  gate : g'.gate = g.gate
  content : g'.content = g.content
  changes : g'.changes = g.changes

omit [OrderedSet S K] in
theorem ButStrategy.undisturbed (h : ButStrategy g g') : g.Undisturbed g' :=
  ⟨congrArg Twin.copies h.content, congrArg Gate.selector h.gate, h.changes⟩

omit [OrderedSet S K] in
theorem ButStrategy.turnover (h : ButStrategy g g') : g.Turnover g' :=
  factual_turnover g g g' h.gate h.content .refl

/-- Whether what a write leaves that does not return is told by where it breaks off. -/
structure ToldByExit (change : Change K) (polls : List (Poll K (Twin S))) (g : TwinSet S K) :
    Prop where
  /-- A write does not return exactly if it breaks off at one of its exits. -/
  error_iff : ∀ fault, (write change polls g).1 = .error fault ↔
    ∃ exit, BreaksAt change polls g exit fault
  /-- What it has left then. -/
  abandoned : ∀ exit fault, BreaksAt change polls g exit fault →
    Abandoned change exit fault g (write change polls g).2
  /-- So it would be if the strategy broke off where it starts anew for the first wait, whatever
  becomes of the strategy, -/
  firstRestart : ∀ fault g₀ g', Published change g g₀ → ButStrategy g₀ g' →
    Abandoned change .firstWait fault g g'
  /-- or for the second one. -/
  secondRestart : ∀ fault g₀ g₁ g' rest, Published change g g₀ →
    g₀.firstWait.awaitEmpty g₀.gate.indicator.current.other polls 0 = (.ok rest, g₁) →
    ButStrategy (g₁.switch g₀.gate.indicator.current.other) g' →
    Abandoned change .secondWait fault g g'

omit [OrderedSet S K] in
theorem butStrategy_firstWait (g : TwinSet S K) : ButStrategy g g.firstWait :=
  ⟨rfl, rfl, by simp [changes, Gated.firstWait, restart, record, Event.isChange]⟩

/-- It is, wherever the accounts are right. -/
theorem toldByExit_of_accounted (haccounted : g.Accounted)
    (hpolls : ∀ poll ∈ polls, Undisturbing poll) (horderly : ∀ poll ∈ polls, Orderly poll) :
    ToldByExit change polls g := by
  refine ⟨fun fault => ⟨exists_breaksAt hpolls, ?_⟩, fun exit fault hbreaks => ?_,
    fun fault g₀ g' hpublished hstrategy => ?_,
    fun fault g₀ g₁ g' rest hpublished hfirst hstrategy => ?_⟩
  · rintro ⟨exit, hbreaks⟩
    exact (hbreaks.leaves hpolls horderly).1
  · exact (hbreaks.leaves hpolls horderly).2.abandoned (turnover_write horderly change g) haccounted
  · have hexposed := hpublished.exposed.undisturbed hstrategy.undisturbed
    refine (Leaves.firstWait hexposed ?_).abandoned
      (hpublished.turnover.trans hstrategy.turnover) haccounted
    rw [hstrategy.gate, hpublished.indicator_eq]
  · have hbegun := butStrategy_firstWait g₀
    have hkept := undisturbed_awaitEmpty hpolls g₀.gate.indicator.current.other 0 g₀.firstWait
    have hcounted := turnover_awaitEmpty horderly g₀.gate.indicator.current.other 0 g₀.firstWait
    rw [hfirst] at hkept hcounted
    have hswitched : Undisturbed g₁ (g₁.switch g₀.gate.indicator.current.other) := ⟨rfl, rfl, rfl⟩
    have hexposed := hpublished.exposed.undisturbed
      (((hbegun.undisturbed.trans hkept).trans hswitched).trans hstrategy.undisturbed)
    have hturnover : g.Turnover (g₁.switch g₀.gate.indicator.current.other) :=
      Turnover.aside ((hpublished.turnover.trans hbegun.turnover).trans hcounted) rfl rfl
    refine (Leaves.secondWait hexposed ?_).abandoned (hturnover.trans hstrategy.turnover) haccounted
    rw [hstrategy.gate, ← hpublished.indicator_eq]
    rfl

/-- However a set is built, of whatever copies, and whatever has been done to it, writes that broke
off included: if the next write does not return, it is told by where it breaks off what it leaves.
-/
theorem broken_write_leaves {detected : Option Parallelism} {config : Config}
    {assigner : Assigner} {strategy : Strategy} {copies : Copies S} {start : TwinSet S K}
    (hcreate : create detected config assigner strategy copies = .ok start)
    {deeds : List (Deed S K)} (hdeeds : ∀ deed ∈ deeds, deed.ByVisitors)
    {polls : List { poll : Poll K (Twin S) // Undisturbing poll }}
    (hwrite : (Deed.write change polls).ByVisitors) :
    ToldByExit change (polls.map (·.val)) (follow deeds start) := by
  have horderly : ∀ poll ∈ polls.map (·.val), Orderly poll := by
    intro poll hpoll
    obtain ⟨pause, hmem, rfl⟩ := List.mem_map.mp hpoll
    exact (hwrite pause hmem).orderly
  exact toldByExit_of_accounted (accounted_follow hdeeds (accounted_create hcreate))
    (undisturbing_pauses polls) horderly

/-- A set of numbers with one slot, of which the left copy breaks off in its second change. -/
def tornSet : TwinSet (Rigged (SortedList Nat)) Nat where
  gate := SetSession.narrowSession.set.gate
  strategy := .yielding
  content := {
    copies := ⟨{ set := {}, rigs := [(1, .raise "torn")] }, { set := {} }⟩
    assigner := .sequential }
  events := [.configured SetSession.narrowConfig .yielding, .created 1 1]

/-- A pause that breaks off. -/
def givingUp : { poll : Poll Nat (Twin (Rigged (SortedList Nat))) // Undisturbing poll } :=
  ⟨fun g => (.error (.raised "gave up"), g), .refl⟩

/-- A pause in which a reader leaves and another one enters. -/
def relief (old new : Nat) :
    { poll : Poll Nat (Twin (Rigged (SortedList Nat))) // Undisturbing poll } :=
  ⟨fun g => (.ok (), (enter new (leaveBy old g)).2),
    fun g => (undisturbed_leaveBy old g).trans (undisturbed_enter new _)⟩

theorem visiting_givingUp : Visiting givingUp.val := fun _ => .refl

theorem visiting_relief (old new : Nat) : Visiting (relief old new).val :=
  fun g => (visits_leaveBy old g).tail (.enter new)

/-- A reader enters and holds up a write, which is given up after it has switched versions. -/
def tornDeeds : List (Deed (Rigged (SortedList Nat)) Nat) := [
  .others (fun g => (enter 2 g).2) (undisturbed_enter 2),
  .write (.add 1) [givingUp]]

/-- The same, and a write that is refused. -/
def tornDeeds' : List (Deed (Rigged (SortedList Nat)) Nat) := tornDeeds ++ [.write (.remove 9) []]

theorem byVisitors_tornDeeds' : ∀ deed ∈ tornDeeds', deed.ByVisitors := by
  simp only [tornDeeds', tornDeeds, List.cons_append, List.nil_append, List.forall_mem_cons,
    List.not_mem_nil, false_implies, implies_true, and_true, Deed.ByVisitors]
  exact ⟨fun g => .single (.enter 2), visiting_givingUp⟩

/-- The reader is still inside, under the version that is not current, and the copies differ. A
write can break off at each of its exits there, and readers see the copy that goes with the exit. -/
theorem broken_write_leaves_torn :
    create none SetSession.narrowConfig .sequential .yielding tornSet.content.copies =
      .ok tornSet ∧
    (∀ deed ∈ tornDeeds', deed.ByVisitors) ∧
    (follow tornDeeds tornSet).content.inside = [⟨2, 0, .zero, .left⟩] ∧
    (follow tornDeeds tornSet).visibleKeys = [1] ∧ (follow tornDeeds tornSet).hiddenKeys = [] ∧
    ((Deed.attempt (.add 2) [] (follow tornDeeds' tornSet)).1 = .error (.raised "torn") ∧
      (Deed.attempt (.add 2) [] (follow tornDeeds' tornSet)).2.visibleKeys = [1] ∧
      Abandoned (.add 2) .firstChange (.raised "torn") (follow tornDeeds' tornSet)
        (Deed.attempt (.add 2) [] (follow tornDeeds' tornSet)).2) ∧
    ((Deed.attempt (.add 2) [givingUp] (follow tornDeeds tornSet)).1 =
        .error (.raised "gave up") ∧
      (Deed.attempt (.add 2) [givingUp] (follow tornDeeds tornSet)).2.visibleKeys = [2] ∧
      Abandoned (.add 2) .firstWait (.raised "gave up") (follow tornDeeds tornSet)
        (Deed.attempt (.add 2) [givingUp] (follow tornDeeds tornSet)).2) ∧
    ((Deed.attempt (.add 2) [relief 2 4, givingUp] (follow tornDeeds tornSet)).1 =
        .error (.raised "gave up") ∧
      (Deed.attempt (.add 2) [relief 2 4, givingUp] (follow tornDeeds tornSet)).2.visibleKeys =
        [2] ∧
      Abandoned (.add 2) .secondWait (.raised "gave up") (follow tornDeeds tornSet)
        (Deed.attempt (.add 2) [relief 2 4, givingUp] (follow tornDeeds tornSet)).2) ∧
    (Deed.attempt (.add 1) [relief 2 4, relief 4 6] (follow tornDeeds tornSet)).1 =
        .error .diverged ∧
      (Deed.attempt (.add 1) [relief 2 4, relief 4 6] (follow tornDeeds tornSet)).2.visibleKeys =
        [1] ∧
      Abandoned (.add 1) .replay .diverged (follow tornDeeds tornSet)
        (Deed.attempt (.add 1) [relief 2 4, relief 4 6] (follow tornDeeds tornSet)).2 := by
  have hcreate : create none SetSession.narrowConfig .sequential .yielding
    tornSet.content.copies = .ok tornSet := rfl
  have hdeeds : ∀ deed ∈ tornDeeds, deed.ByVisitors := fun deed hmem =>
    byVisitors_tornDeeds' deed (List.mem_append_left _ hmem)
  refine ⟨hcreate, byVisitors_tornDeeds', by decide +kernel, by decide +kernel, by decide +kernel,
    ?_, ?_, ?_, ?_⟩
  · have hwrite : (Deed.write (S := Rigged (SortedList Nat)) (.add 2) []).ByVisitors := nofun
    have hbreaks : BreaksAt (.add 2) [] (follow tornDeeds' tornSet) .firstChange
        (.raised "torn") := .firstChange (Prod.ext (by decide +kernel) rfl)
    have htold := broken_write_leaves hcreate byVisitors_tornDeeds' hwrite
    exact ⟨(htold.error_iff _).mpr ⟨_, hbreaks⟩, by decide +kernel, htold.abandoned _ _ hbreaks⟩
  · have hwrite : (Deed.write (.add 2) [givingUp]).ByVisitors := by
      simp [Deed.ByVisitors, visiting_givingUp]
    have hbreaks : BreaksAt (.add 2) [givingUp.val] (follow tornDeeds tornSet) .firstWait
        (.raised "gave up") := .firstWait (published_of_effective (by decide +kernel)) rfl
    have htold := broken_write_leaves hcreate hdeeds hwrite
    exact ⟨(htold.error_iff _).mpr ⟨_, hbreaks⟩, by decide +kernel, htold.abandoned _ _ hbreaks⟩
  · have hwrite : (Deed.write (.add 2) [relief 2 4, givingUp]).ByVisitors := by
      simp [Deed.ByVisitors, visiting_givingUp, visiting_relief]
    have hbreaks : BreaksAt (.add 2) [(relief 2 4).val, givingUp.val] (follow tornDeeds tornSet)
        .secondWait (.raised "gave up") :=
      .secondWait (published_of_effective (by decide +kernel)) rfl rfl
    have htold := broken_write_leaves hcreate hdeeds hwrite
    exact ⟨(htold.error_iff _).mpr ⟨_, hbreaks⟩, by decide +kernel, htold.abandoned _ _ hbreaks⟩
  · have hwrite : (Deed.write (.add 1) [relief 2 4, relief 4 6]).ByVisitors := by
      simp [Deed.ByVisitors, visiting_relief]
    have hbreaks : BreaksAt (.add 1) [(relief 2 4).val, (relief 4 6).val]
        (follow tornDeeds tornSet) .replay .diverged :=
      .replay (published_of_effective (by decide +kernel)) rfl rfl rfl
    have htold := broken_write_leaves hcreate hdeeds hwrite
    exact ⟨(htold.error_iff _).mpr ⟨_, hbreaks⟩, by decide +kernel, htold.abandoned _ _ hbreaks⟩

end TwinSet

end LeftRight
