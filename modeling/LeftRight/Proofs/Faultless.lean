import LeftRight.Proofs.Sharding
import LeftRight.Proofs.Stored

/-!
# Lawful use breaks nothing off

As long as the copies do as they are told and cannot be told apart, as pauses do not break off and
the counters can count the readers, nothing breaks off but reads for a reason of their own. The
slots of a set that is built are never none, built-in assigners keep to them, each departure has its
arrival, and the second copy accepts what the first one has accepted.
-/

namespace LeftRight

open Gated

/-- Copies that accept the same changes as others of which they are `Same`, stay the same as these,
are not altered by what they refuse, and break nothing off. -/
structure OrderedSet.Consistent {S K : Type} [OrderedSet S K] (Same : S → S → Prop) : Prop where
  /-- Being the same is an equivalence. -/
  equivalence : Equivalence Same
  /-- Of two that are the same, both accept a change or neither. -/
  answer_eq : ∀ (change : Change K) {s t : S}, Same s t →
    (apply change s).1 = (apply change t).1
  /-- Two that are the same stay so. -/
  same_apply : ∀ (change : Change K) {s t : S}, Same s t →
    Same (apply change s).2 (apply change t).2
  /-- What is refused alters nothing. -/
  unchanged : ∀ {change : Change K} {s t : S}, apply change s = (.ok false, t) → Same t s
  /-- Every change returns. -/
  returns : ∀ (change : Change K) (s : S), ∃ accepted, (apply change s).1 = .ok accepted

/-- A lawful set of which every change returns is the same as itself only. -/
theorem OrderedSet.consistent_eq {S K : Type} [OrderedSet S K] [Lawful S]
    (hreturns : ∀ (change : Change K) (s : S), ∃ accepted, (apply change s).1 = .ok accepted) :
    Consistent (S := S) Eq where
  equivalence := eq_equivalence
  answer_eq _ _ _ h := by rw [h]
  same_apply _ _ _ h := by rw [h]
  unchanged := Lawful.unchanged
  returns := hreturns

/-- The fault that an answer tells. -/
def Answer.faults {K : Type} : Answer K → List Fault
  | .fault reason => [reason]
  | _ => []

/-- The faults that an event tells: those of the answers in a pause, and those of a view. -/
def Event.faults {K : Type} : Event K → List Fault
  | .reset _ (.error fault) => [fault]
  | .waited did _ (.error fault) => fault :: did.flatMap Answer.faults
  | .waited did _ (.ok _) | .waitRaised did _ => did.flatMap Answer.faults
  | _ => []

/-- The faults that are told in a session. -/
def faultsTold {K : Type} (transcript : List (Answer K × List (Event K))) : List Fault :=
  transcript.flatMap fun told => told.1.faults ++ told.2.flatMap Event.faults

/-- Whether no pause of a step breaks off. -/
def SetStep.IsPatient {K : Type} : SetStep K → Prop
  | .write _ script => ∀ moves ∈ script, ∀ message, Move.raise message ∉ moves
  | _ => True

section Told

variable {K : Type} {t : Terms} {fault : Fault}

theorem Answer.Alike.may_of_mem {answer₁ answer₂ : Answer K} (h : answer₁.Alike t answer₂)
    (hfault : fault ∈ answer₁.faults) : t.may fault := by
  cases h with
  | same whole =>
    unfold Answer.faults at hfault
    split at hfault
    · exact absurd rfl (whole _)
    · cases hfault
  | fault may =>
    rw [List.mem_singleton.mp hfault]
    exact may
  | gate | set => cases hfault

/-- A property of what is related to something holds of each in a list that is related to one. -/
theorem may_of_mem_flatMap {α : Type} {Rel : α → α → Prop} {faults : α → List Fault}
    (h : ∀ {a₁ a₂}, Rel a₁ a₂ → ∀ fault ∈ faults a₁, t.may fault) {l₁ l₂ : List α}
    (hl : List.Forall₂ Rel l₁ l₂) (hfault : fault ∈ l₁.flatMap faults) : t.may fault := by
  induction hl with
  | nil => cases hfault
  | cons hrel _ ih =>
    rw [List.flatMap_cons, List.mem_append] at hfault
    exact hfault.elim (h hrel fault) ih

theorem Event.Alike.may_of_mem {e₁ e₂ : Event K} (h : e₁.Alike t e₂) (hfault : fault ∈ e₁.faults) :
    t.may fault := by
  cases h with
  | same plain =>
    cases e₁ with
    | toggling | slowDrain | stuck | changed | looked | measured => cases hfault
    | configured | created | reset | waited | waitRaised | slot => exact plain.elim
  | waited did => exact may_of_mem_flatMap (fun h _ => h.may_of_mem) did hfault
  | waitRaised did => exact may_of_mem_flatMap (fun h _ => h.may_of_mem) did hfault
  | configured | created | slot | reset => cases hfault

/-- Runs that are alike tell no fault that they may not. -/
theorem may_of_mem_faultsTold {first second : List (Answer K × List (Event K))}
    (h : TranscriptsAlike t first second) (hfault : fault ∈ faultsTold first) : t.may fault := by
  refine may_of_mem_flatMap (fun {told₁ told₂} halike fault hfault => ?_) h hfault
  rcases List.mem_append.mp hfault with hanswer | hevents
  · exact halike.1.may_of_mem hanswer
  · exact may_of_mem_flatMap (fun h _ => h.may_of_mem) halike.2 hevents

end Told

/-- Built-in assigners keep to the slots that there are. -/
theorem Assigner.inRange_builtin {assigner : Assigner}
    (h : assigner = .hashed ∨ assigner = .sequential) {slots : Nat} (hslots : 0 < slots) :
    assigner.InRange slots := by
  rcases h with rfl | rfl
  · exact Assigner.inRange_remainder hslots fun _ thread =>
      (threadHash (thread + 1).toUInt64).toNat
  · exact Assigner.inRange_remainder hslots fun _ thread => thread

/-- A configuration that can be used comes to some slots. -/
theorem Config.slotCount_pos {detected : Option Parallelism} {config : Config} {slots : Nat}
    (h : config.slotCount detected = .ok slots) : 0 < slots := by
  unfold Config.slotCount at h
  dsimp only at h
  split at h
  · cases h
  · rename_i hslotsPerCore
    split at h
    · cases h
      refine Nat.mul_pos ?_ ?_
      · exact Nat.pos_of_ne_zero fun hzero =>
          (config.resolve detected).property (UInt64.toNat_inj.mp hzero)
      · exact Nat.pos_of_ne_zero fun hzero => hslotsPerCore (UInt64.toNat_inj.mp hzero)
    · cases h

namespace TwinSet

variable {S K : Type}

/-- To build a set either succeeds or shows that its configuration cannot be used. -/
theorem create_ne_fault (detected : Option Parallelism) (config : Config) (assigner : Assigner)
    (strategy : Strategy) (copies : Copies S) (fault : Fault) :
    create (K := K) detected config assigner strategy copies ≠ .error (.fault fault) := by
  intro h
  unfold create at h
  split at h
  · cases h
  · rename_i slots hslots
    have hpos := Config.slotCount_pos hslots
    simp only [Gate.create, Indicator.create, dif_neg hpos.ne', Except.map] at h
    cases h

end TwinSet

namespace SetSession

open TwinSet OrderedSet

variable {S K : Type} [OrderedSet S K] {Same : S → S → Prop} {t : Terms} {s s₁ s₂ : SetSession S K}

/-- Whether the copies of a set cannot be told apart. -/
def SameCopies (Same : S → S → Prop) (g : TwinSet S K) : Prop :=
  Same g.visibleCopy g.hiddenCopy

/-- After a write that returns the copies cannot be told apart, if they could not before. -/
theorem sameCopies_of_wrote (hbacking : Consistent Same) {change : Change K}
    {polls : List (Poll K (Twin S))} {accepted : Bool} {g g' : TwinSet S K}
    (h : g.Wrote change polls (.ok accepted) g') (hsame : SameCopies Same g) :
    SameCopies Same g' := by
  have htrans := @hbacking.equivalence.trans
  have hsymm := @hbacking.equivalence.symm
  generalize houtcome : Except.ok accepted = outcome at h
  cases h with
  | refused applied ineffective selector visible =>
    subst houtcome
    cases accepted with
    | true => exact absurd rfl ineffective
    | false =>
      rw [SameCopies, visible]
      exact htrans hsame (hsymm (hbacking.unchanged applied))
  | interrupted => cases houtcome
  | replayed applied replayed =>
    have hnext := hbacking.same_apply change hsame
    rw [applied, replayed] at hnext
    exact hsymm hnext

/-- In a step of which no pause breaks off, copies that cannot be told apart cause no fault. -/
theorem tolerated_of_same (hbacking : Consistent Same) (hsame : SameCopies Same s.set)
    (step : SetStep K) : Tolerated t step s := by
  cases step with
  | write change script =>
    refine ⟨fun fault c c' happlied => ?_, fun c c' haccepted hrefused => ?_⟩
    · obtain ⟨accepted, hreturns⟩ := hbacking.returns change c
      rw [happlied] at hreturns
      cases hreturns
    · have hanswer := hbacking.answer_eq change hsame
      rw [haccepted, hrefused] at hanswer
      cases hanswer
  | _ => trivial

/-- A write of which no pause breaks off returns, if the copies cannot be told apart. -/
theorem write_returns (hbacking : Consistent Same) {g : TwinSet S K} (halike : TwinSet.Alike t g g)
    (hraised : ∀ message, t.may (.raised message)) (hsame : SameCopies Same g) {mayStay : Bool}
    {change : Change K} {script : Script (SetRequest K)}
    (hpatient : (SetStep.write change script).IsPatient)
    (hfits : (company mayStay).FitsDuring (RoomFor mayStay) script fun polls =>
      TwinSet.write change polls g) :
    ∃ accepted, (TwinSet.write change ((company mayStay).polls script) g).1 = .ok accepted := by
  obtain ⟨outcome, g', -, hwrite, -, -, hreason⟩ :=
    TwinSet.Alike.write (TwinSet.accompanies_company hraised mayStay) halike
      (TwinSet.closing_company hraised mayStay) (undisturbing_lastTurn mayStay) hfits
  rw [Company.polls_eq, hwrite]
  cases outcome with
  | ok accepted => exact ⟨accepted, rfl⟩
  | error fault =>
    exfalso
    cases hreason fault rfl with
    | pause reason =>
      obtain ⟨moves, hmoves, message, hraise, rfl⟩ | hnone := reason
      · exact hpatient moves hmoves message hraise
      · exact hnone
    | @copy _ c c' applied =>
      obtain ⟨accepted, hreturns⟩ := hbacking.returns change c
      rw [applied] at hreturns
      cases hreturns
    | diverged accepted refused =>
      have hanswer := hbacking.answer_eq change hsame
      rw [accepted, refused] at hanswer
      cases hanswer

/-- After a step of which no pause breaks off the copies cannot be told apart, if they could not
before. -/
theorem sameCopies_perform (hbacking : Consistent Same) (halike : TwinSet.Alike t s.set s.set)
    (hraised : ∀ message, t.may (.raised message)) (hsame : SameCopies Same s.set)
    {step : SetStep K} (hpatient : step.IsPatient) (hfits : FitsStep step s) :
    SameCopies Same (s.perform step).2.set := by
  unfold SetSession.perform
  cases hconsumed : s.consumed with
  | true => exact hsame
  | false =>
    cases step with
    | ask request =>
      have hundisturbed := undisturbed_perform s.mayStay request s.set
      change SameCopies Same (TwinSet.perform s.mayStay request s.set).2
      rw [SameCopies, hundisturbed.visibleCopy, hundisturbed.hiddenCopy]
      exact hsame
    | write change script =>
      obtain ⟨accepted, hreturns⟩ :=
        write_returns hbacking halike hraised hsame hpatient (hfits hconsumed)
      have hwrote : s.set.Wrote change ((company s.mayStay).polls script) _ _ :=
        wrote_write (fun poll hpoll => (polls_of_script s.mayStay script poll hpoll).1) s.set
      rw [hreturns] at hwrote
      exact sameCopies_of_wrote hbacking hwrote hsame
    | intoCopies | intoInner => exact hsame

/-- A session of which no pause breaks off is like itself: it tells only what may be told. -/
theorem Alike.run_self (hbacking : Consistent Same) (hraised : ∀ message, t.may (.raised message))
    (h : s.Alike t s) (hsame : SameCopies Same s.set) {steps : List (SetStep K)}
    (hpatient : ∀ step ∈ steps, step.IsPatient) (hfits : Fits steps s) :
    TranscriptsAlike t (s.run steps).1 (s.run steps).1 ∧
      (s.run steps).2.Alike t (s.run steps).2 := by
  have hrun := transcripts_alike (t := t) SetSession.perform SetSession.perform _
    (fun step s => FitsStep step s ∧ step.IsPatient)
    (fun s₁ s₂ => s₂ = s₁ ∧ s₁.Alike t s₁ ∧ SameCopies Same s₁.set) ?_ ⟨rfl, h, hsame⟩
    fun i step hstep => ⟨hfits i step hstep, hpatient step (List.mem_of_getElem? hstep)⟩
  · obtain ⟨htold, -, hend, -⟩ := hrun
    exact ⟨htold, hend⟩
  · rintro step u _ ⟨rfl, halike, hsame⟩ ⟨hfits, hpatient⟩
    obtain ⟨hanswer, hnext⟩ :=
      halike.perform hraised hfits (tolerated_of_same hbacking hsame step)
    have hsame' := sameCopies_perform hbacking halike.set hraised hsame hpatient hfits
    exact ⟨hanswer, hnext.set.events, rfl, hnext.heard, hsame'⟩

end SetSession

open TwinSet OrderedSet SetSession

variable {S K : Type} [OrderedSet S K]

/-- With a usable configuration, a built-in assigner and copies that are lawful and the same, a set
is built; and in whatever session nothing of its own breaks off, if no pause does and there is room
for all who enter: each fault that is told is the message of a read that broke off. Between the
steps whoever is inside may leave. -/
theorem lawful_use_faultless {Same : S → S → Prop} (hbacking : Consistent Same)
    (detected : Option Parallelism) (config : Config) {assigner : Assigner}
    (hassigner : assigner = .hashed ∨ assigner = .sequential) (strategy : Strategy)
    {copies : Copies S} (hsame : Same copies.left copies.right) :
    (∀ fault, create (K := K) detected config assigner strategy copies ≠ .error (.fault fault)) ∧
    ∀ (g : TwinSet S K) (mayStay : Bool) (steps : List (SetStep K)),
      create detected config assigner strategy copies = .ok g →
      (∀ step ∈ steps, step.IsPatient) → Fits steps { set := g, mayStay } →
      (∀ fault ∈ faultsTold (SetSession.run steps { set := g, mayStay }).1,
        ∃ message, fault = .raised message) ∧
      ∀ i, ∀ reader ∈ (SetSession.run (steps.take i) { set := g, mayStay }).2.set.content.inside,
        (leave reader (SetSession.run (steps.take i) { set := g, mayStay }).2.set).1 = .ok () := by
  refine ⟨create_ne_fault detected config assigner strategy copies, ?_⟩
  intro g mayStay steps hcreate hpatient hfits
  obtain ⟨hselector, -, -, -, hcontent, -⟩ := create_eq_ok hcreate
  have hrange : assigner.InRange g.gate.indicator.size :=
    Assigner.inRange_builtin hassigner (List.length_pos_iff.mpr g.gate.indicator.slots_ne_nil)
  let may : Fault → Prop := fun fault => ∃ message, fault = .raised message
  have halike : SetSession.Alike ⟨may, g.gate.indicator.size, g.gate.indicator.size⟩
      { set := g, mayStay } { set := g, mayStay } :=
    ⟨alike_create hcreate hcreate rfl rfl hrange hrange may, rfl, rfl⟩
  have hcopies : SameCopies Same g := by
    rw [SameCopies, visibleCopy, hiddenCopy, hselector, hcontent]
    exact hsame
  have hraised (message : String) : may (.raised message) := ⟨message, rfl⟩
  have hrun (i : Nat) := halike.run_self hbacking hraised hcopies
    (fun step hstep => hpatient step (List.mem_of_mem_take hstep)) (FitsThroughout.take hfits i)
  refine ⟨fun fault hfault => ?_, fun i reader hreader => ?_⟩
  · have htold := (hrun steps.length).1
    rw [List.take_length] at htold
    exact may_of_mem_faultsTold htold hfault
  · exact (hrun i).2.set.serves₁.depart_ok hreader

/-- A sorted list does as it is told. -/
theorem consistent_sortedList {K : Type} [Ord K] : Consistent (S := SortedList K) Eq :=
  consistent_eq fun change s => ⟨_, congrArg Prod.fst (SortedList.apply_eq change s)⟩

/-- So does a search tree, which is the same as another one if it stores the same, whatever the
shapes of the two are. -/
theorem consistent_searchTree {K : Type} [Ord K] [Std.TransOrd K] :
    Consistent (S := SearchTree K) fun s t => Storing.stored s = Storing.stored t where
  equivalence := ⟨fun _ => rfl, Eq.symm, Eq.trans⟩
  answer_eq change s t hsame := by
    rw [Storing.answer_apply change trivial, Storing.answer_apply change trivial, hsame]
  same_apply change s t hsame := by
    rw [Storing.stored_apply change trivial, Storing.stored_apply change trivial, hsame]
  unchanged {change s t} happlied := by
    have hanswer := Storing.answer_apply change (s := s) trivial
    have hstored := Storing.stored_apply change (s := s) trivial
    rw [happlied] at hanswer hstored
    rw [hstored]
    exact Change.on_of_not_takes Storing.stored_congr (Except.ok.inj hanswer).symm
  returns change s := ⟨_, Storing.answer_apply change trivial⟩

theorem millisecond_lt : 1000000 < UInt64.size * 1000000000 := by decide

/-- A configuration of six slots. -/
def smallConfig : Config where
  parallelism := Parallelism.ofWord? 3
  slotsPerCore := 2
  slowDrain := some ⟨1000000, millisecond_lt⟩

/-- An empty set of numbers with six slots, assigned by hash, and a writer that backs off. -/
def smallSet : TwinSet (SortedList Nat) Nat where
  gate := {
    indicator := { slots := .replicate 6 {}, slots_ne_nil := List.cons_ne_nil _ _ }
    slowDrain := smallConfig.slowDrain }
  strategy := .backoff (.fresh none)
  content := { copies := ⟨{}, {}⟩, assigner := .hashed }
  events := [.configured smallConfig (.backoff (.fresh none)), .created 6 2]

/-- Readers come and go before, during and after writes, one breaks off, and then the set is taken
apart. -/
def lawfulSteps : List (SetStep Nat) := [
  .ask (.enter 1),
  .ask (.contains 4 2),
  .write (.add 5) [[.ask (.enter 3)], [.ask (.leave 1 none)]],
  .write (.add 5) [],
  .ask (.raise "gave up" 2),
  .ask (.inspection true),
  .ask .visible,
  .write (.remove 5) [[.ask (.leave 3 none)]],
  .intoCopies]

/-- The only fault that is told is the message of the read that broke off. -/
theorem lawful_use_faultless_small :
    create none smallConfig .hashed (.backoff (.fresh none)) ⟨{}, {}⟩ = .ok smallSet ∧
    (∀ step ∈ lawfulSteps, step.IsPatient) ∧ Fits lawfulSteps { set := smallSet, mayStay := true } ∧
    faultsTold (SetSession.run lawfulSteps { set := smallSet, mayStay := true }).1 =
      [.raised "gave up"] ∧
    ∀ fault ∈ faultsTold (SetSession.run lawfulSteps { set := smallSet, mayStay := true }).1,
      ∃ message, fault = .raised message := by
  have hcreate : create none smallConfig .hashed (.backoff (.fresh none)) ⟨{}, {}⟩ =
    .ok smallSet := rfl
  have hpatient : ∀ step ∈ lawfulSteps, step.IsPatient := by
    simp [lawfulSteps, SetStep.IsPatient]
  have hfits : Fits lawfulSteps { set := smallSet, mayStay := true } :=
    fits_of_hasRoom (by decide +kernel)
  have hfaultless := (lawful_use_faultless consistent_sortedList none smallConfig (.inl rfl)
    (.backoff (.fresh none)) rfl).2 smallSet true lawfulSteps hcreate hpatient hfits
  exact ⟨hcreate, hpatient, hfits, by decide +kernel, hfaultless.1⟩

end LeftRight
