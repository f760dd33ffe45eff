import LeftRight.Proofs.Writes
import LeftRight.Session.Set

/-!
# Bystanders

Nobody but the writer changes a copy or the side of new readers. Readers that enter, look and
leave do not, and neither do the pauses of a writer that waits. So a write is told by what it
does to the visible copy and to the hidden one.
-/

namespace LeftRight

/-- Whether an event is a change of a copy. -/
def Event.isChange {K : Type} : Event K → Bool
  | .changed .. => true
  | _ => false

/-- Whether an event is the end of a write that breaks off: of a pause, for want of anything more
to happen, or of a change. -/
def Event.unwinds {K : Type} : Event K → Bool
  | .waitRaised .. | .stuck | .changed _ _ none => true
  | _ => false

/-- Whether an event is a look at a copy. -/
def Event.IsLook {K : Type} : Event K → Prop
  | .looked .. | .measured .. => True
  | _ => False

theorem Event.IsLook.isChange_eq {K : Type} {e : Event K} (h : e.IsLook) : e.isChange = false := by
  cases e with
  | changed => exact h.elim
  | _ => rfl

namespace Company

variable {R K C : Type} {Rel : Gated K C → Gated K C → Prop}

/-- What requests, departures and the end of a pause do, a pause does, if it can be done one after
another. -/
theorem related_turn (crew : Company R K C)
    (htrans : ∀ {g₁ g₂ g₃}, Rel g₁ g₂ → Rel g₂ g₃ → Rel g₁ g₃)
    (hperform : ∀ request g, Rel g (crew.perform request g).2)
    (hrelease : ∀ g, Rel g (crew.release g).2) (hpause : ∀ did g, Rel g (g.pause did))
    (hraise : ∀ did released g, Rel g (g.record (.waitRaised did released)))
    (moves : List (Move R)) (did : List (Answer K)) (g : Gated K C) :
    Rel g (crew.turn moves did g).2 := by
  induction moves generalizing did g with
  | nil => exact hpause did g
  | cons move moves ih =>
    cases move with
    | ask request => exact htrans (hperform request g) (ih _ _)
    | raise message => exact htrans (hrelease g) (hraise did _ _)

/-- So does the last pause, when all are let go or the writer is stuck. -/
theorem related_lastTurn (crew : Company R K C)
    (htrans : ∀ {g₁ g₂ g₃}, Rel g₁ g₂ → Rel g₂ g₃ → Rel g₁ g₃)
    (hrelease : ∀ g, Rel g (crew.release g).2) (hpause : ∀ did g, Rel g (g.pause did))
    (hstuck : ∀ g, Rel g (g.record .stuck)) (g : Gated K C) : Rel g (crew.lastTurn g).2 := by
  have hreleased := hrelease g
  unfold lastTurn
  split <;> rename_i hleft <;> rw [hleft] at hreleased
  · exact htrans hreleased (hstuck _)
  · exact htrans hreleased (hpause _ _)

end Company

namespace TwinSet

variable {S K : Type}

/-- The copy at which new readers do not look. -/
def hiddenCopy (g : TwinSet S K) : S := g.content.copies.get g.gate.selector.other

/-- The changes of copies in a trace. -/
def changes (g : TwinSet S K) : List (Event K) := g.events.filter (·.isChange)

/-- What happens without a writer: the copies stay as they are, and so do the side of new
readers and the changes in the trace. -/
structure Undisturbed (g g' : TwinSet S K) : Prop where
  copies : g'.content.copies = g.content.copies
  selector : g'.gate.selector = g.gate.selector
  changes : g'.changes = g.changes

variable {g g' g'' : TwinSet S K}

theorem Undisturbed.refl (g : TwinSet S K) : g.Undisturbed g := ⟨rfl, rfl, rfl⟩

theorem Undisturbed.trans (h : g.Undisturbed g') (h' : g'.Undisturbed g'') :
    g.Undisturbed g'' where
  copies := h'.copies.trans h.copies
  selector := h'.selector.trans h.selector
  changes := h'.changes.trans h.changes

theorem Undisturbed.visibleCopy (h : g.Undisturbed g') : g'.visibleCopy = g.visibleCopy := by
  rw [TwinSet.visibleCopy, h.copies, h.selector]
  rfl

theorem Undisturbed.hiddenCopy (h : g.Undisturbed g') : g'.hiddenCopy = g.hiddenCopy := by
  rw [TwinSet.hiddenCopy, h.copies, h.selector]
  rfl

/-- Events that are no changes may be noted. -/
theorem Undisturbed.note (h : g.Undisturbed g') {noted : List (Event K)}
    (hnoted : ∀ e ∈ noted, e.isChange = false) :
    g.Undisturbed { g' with events := g'.events ++ noted } := by
  refine ⟨h.copies, h.selector, ?_⟩
  have hnone : noted.filter (·.isChange) = [] := by
    rw [List.filter_eq_nil_iff]
    intro e he
    rw [hnoted e he]
    exact Bool.false_ne_true
  have hchanges := h.changes
  unfold TwinSet.changes at hchanges ⊢
  rw [List.filter_append, hnone, List.append_nil, hchanges]

/-- An event that is no change may be recorded. -/
theorem Undisturbed.record (h : g.Undisturbed g') {e : Event K} (he : e.isChange = false) :
    g.Undisturbed (g'.record e) := by
  have hnoted : ∀ e' ∈ [e], e'.isChange = false := by
    intro e' he'
    rw [List.mem_singleton.mp he']
    exact he
  exact h.note hnoted

theorem undisturbed_pause (did : List (Answer K)) (g : TwinSet S K) :
    g.Undisturbed (g.pause did) :=
  (show g.Undisturbed { g with strategy := g.strategy.pause } from ⟨rfl, rfl, rfl⟩).record rfl

theorem undisturbed_enter (thread : Nat) (g : TwinSet S K) :
    g.Undisturbed (enter thread g).2 := by
  have hasked : g.Undisturbed { g with content.assigned := g.content.assigned + 1 } :=
    ⟨rfl, rfl, rfl⟩
  dsimp only [enter]
  cases g.content.assigner.slot g.content.assigned thread g.gate.indicator.size with
  | error fault => exact hasked
  | ok slot =>
    have hassigned := hasked.record (e := .slot thread g.gate.indicator.size slot) rfl
    dsimp only [Gated.record_gate]
    rcases g.gate.indicator.arrive slot with ⟨fault | version, indicator⟩
    · exact hassigned
    · exact ⟨hassigned.copies, hassigned.selector, hassigned.changes⟩

theorem undisturbed_leave (reader : Reader) (g : TwinSet S K) :
    g.Undisturbed (leave reader g).2 := ⟨rfl, rfl, rfl⟩

/-- A look that notes no changes leaves the set alone. -/
theorem undisturbed_read {α : Type} (thread : Nat)
    (look : Side → S → List (Event K) × Except Fault α)
    (hlook : ∀ side copy, ∀ e ∈ (look side copy).1, e.isChange = false) (g : TwinSet S K) :
    g.Undisturbed (read thread look g).2 := by
  have henter := undisturbed_enter thread g
  unfold read
  rcases hentered : enter thread g with ⟨outcome, g₁⟩
  rw [hentered] at henter
  cases outcome with
  | error fault => exact henter
  | ok reader =>
    have hnoted := henter.note (hlook reader.side (g₁.content.copies.get reader.side))
    have hleft := hnoted.trans (undisturbed_leave reader _)
    dsimp only
    split <;> rename_i hleave <;> rw [hleave] at hleft <;> exact hleft

section Waiting

/-- Whatever happens at a poll, nobody writes. -/
def Undisturbing (poll : Poll K (Twin S)) : Prop := ∀ g : TwinSet S K, g.Undisturbed (poll g).2

/-- A poll that breaks off is the end of its write, and says so in the trace. -/
def Candid (poll : Poll K (Twin S)) : Prop :=
  ∀ g fault g', poll g = (.error fault, g') → ∃ e ∈ g'.events, e.unwinds = true

variable {polls : List (Poll K (Twin S))}

theorem undisturbed_awaitEmpty (hpolls : ∀ poll ∈ polls, Undisturbing poll) (v : Version)
    (count : Nat) (g : TwinSet S K) : g.Undisturbed (g.awaitEmpty v polls count).2 := by
  fun_induction Gated.awaitEmpty v polls count g with
  | case1 polls count g hv =>
    refine ⟨by simp, by simp, ?_⟩
    unfold Gated.reportDrain
    split
    · exact ((Undisturbed.refl g).record rfl).changes
    · rfl
  | case2 count g hv => exact (Undisturbed.refl g).record rfl
  | case3 count g hv poll rest fault g' hpoll =>
    have h := hpolls poll (List.mem_cons_self ..) g
    rwa [hpoll] at h
  | case4 count g hv poll rest g' hpoll ih =>
    have h := hpolls poll (List.mem_cons_self ..) g
    rw [hpoll] at h
    exact h.trans (ih fun poll hp => hpolls poll (List.mem_cons_of_mem _ hp))

/-- A wait that ends leaves the last of its polls unused. -/
theorem suffix_of_awaitEmpty {v : Version} {rest : List (Poll K (Twin S))} {count : Nat}
    (h : g.awaitEmpty v polls count = (.ok rest, g')) : rest <:+ polls := by
  fun_induction Gated.awaitEmpty v polls count g with
  | case1 polls count g hv =>
    obtain ⟨hrest, -⟩ := Prod.mk.inj h
    exact Except.ok.inj hrest ▸ List.suffix_rfl
  | case2 => simp at h
  | case3 => simp at h
  | case4 _ _ _ _ _ _ _ ih => exact (ih h).trans (List.suffix_cons ..)

theorem unwinds_of_awaitEmpty (hpolls : ∀ poll ∈ polls, Candid poll) {v : Version} {count : Nat}
    {fault : Fault} (h : g.awaitEmpty v polls count = (.error fault, g')) :
    ∃ e ∈ g'.events, e.unwinds = true := by
  fun_induction Gated.awaitEmpty v polls count g with
  | case1 => simp at h
  | case2 count g hv =>
    obtain ⟨-, rfl⟩ := Prod.mk.inj h
    exact ⟨.stuck, by simp [Gated.record], rfl⟩
  | case3 count g hv poll rest fault' g'' hpoll =>
    obtain ⟨-, rfl⟩ := Prod.mk.inj h
    exact hpolls poll (List.mem_cons_self ..) g fault' g'' hpoll
  | case4 count g hv poll rest g'' hpoll ih =>
    exact ih (fun poll hp => hpolls poll (List.mem_cons_of_mem _ hp)) h

theorem undisturbed_drain (hpolls : ∀ poll ∈ polls, Undisturbing poll) (v : Version)
    (g : TwinSet S K) : g.Undisturbed (g.drain v polls).2 := by
  have hrestart : g.Undisturbed g.restart :=
    (show g.Undisturbed { g with strategy := g.strategy.reset } from ⟨rfl, rfl, rfl⟩).record rfl
  exact hrestart.trans (undisturbed_awaitEmpty hpolls v 0 g.restart)

/-- A writer that waits leaves the copies alone. -/
theorem undisturbed_toggle (hpolls : ∀ poll ∈ polls, Undisturbing poll) (g : TwinSet S K) :
    g.Undisturbed (g.toggle polls).2 := by
  have hstart := (Undisturbed.refl g).record
    (e := .toggling g.gate.indicator.current g.gate.indicator.current.other) rfl
  have hfirst := hstart.trans (undisturbed_drain hpolls g.gate.indicator.current.other _)
  dsimp only [Gated.toggle]
  split <;> rename_i hdrain <;> rw [hdrain] at hfirst
  · exact hfirst
  · rename_i rest g₁
    have hrest : ∀ poll ∈ rest, Undisturbing poll :=
      fun poll hp => hpolls poll ((suffix_of_awaitEmpty hdrain).subset hp)
    have hswitch : Undisturbed g₁ (g₁.switch g.gate.indicator.current.other) := ⟨rfl, rfl, rfl⟩
    have hsecond := hfirst.trans
      (hswitch.trans (undisturbed_drain hrest g.gate.indicator.current _))
    split <;> rename_i hdrain' <;> rw [hdrain'] at hsecond <;> exact hsecond

theorem unwinds_of_toggle (hpolls : ∀ poll ∈ polls, Candid poll) {fault : Fault}
    (h : g.toggle polls = (.error fault, g')) : ∃ e ∈ g'.events, e.unwinds = true := by
  dsimp only [Gated.toggle] at h
  split at h <;> rename_i hdrain
  · obtain ⟨-, rfl⟩ := Prod.mk.inj h
    exact unwinds_of_awaitEmpty hpolls hdrain
  · rename_i rest g₁
    have hrest : ∀ poll ∈ rest, Candid poll :=
      fun poll hp => hpolls poll ((suffix_of_awaitEmpty hdrain).subset hp)
    split at h <;> rename_i hdrain'
    · obtain ⟨-, rfl⟩ := Prod.mk.inj h
      exact unwinds_of_awaitEmpty hrest hdrain'
    · simp at h

end Waiting

/-- Letting readers leave leaves the copies alone. -/
theorem undisturbed_leaveAll (readers : List Reader) (g : TwinSet S K) :
    g.Undisturbed (leaveAll readers g) := by
  induction readers generalizing g with
  | nil => exact .refl g
  | cons reader readers ih => exact (undisturbed_leave reader g).trans (ih _)

theorem undisturbed_release (g : TwinSet S K) : g.Undisturbed (release g).2 :=
  undisturbed_leaveAll _ g

section Crews

variable {R : Type} {crew : Company R K (Twin S)}

/-- Who writes nothing when something is asked for writes nothing in a pause. -/
theorem undisturbing_turn_of_perform
    (hperform : ∀ request g, Undisturbed g (crew.perform request g).2)
    (hrelease : ∀ g, Undisturbed g (crew.release g).2) (moves : List (Move R))
    (did : List (Answer K)) : Undisturbing (crew.turn moves did) := by
  intro g
  refine crew.related_turn .trans hperform hrelease undisturbed_pause ?_ moves did g
  exact fun did released g => (Undisturbed.refl g).record rfl

theorem undisturbing_lastTurn_of_release (hrelease : ∀ g, Undisturbed g (crew.release g).2) :
    Undisturbing crew.lastTurn := by
  intro g
  refine crew.related_lastTurn .trans hrelease undisturbed_pause ?_ g
  exact fun g => (Undisturbed.refl g).record rfl

end Crews

/-- What a request does to a set. -/
inductive Acts (g : TwinSet S K) : TwinSet S K → Prop
  /-- A reader enters, looks and leaves. -/
  | read {α : Type} (thread : Nat) (look : Side → S → List (Event K) × Except Fault α)
      (looks : ∀ side copy, ∀ e ∈ (look side copy).1, e.IsLook) : Acts g (read thread look g).2
  /-- A reader enters and stays inside, if it is given a slot that exists. -/
  | enter (thread : Nat) : Acts g (enter thread g).2
  /-- A reader that is inside leaves. -/
  | leave {reader : Reader} (inside : reader ∈ g.content.inside) : Acts g (leave reader g).2
  /-- Something is asked for without a look at a copy. -/
  | nothing : Acts g g

theorem Acts.undisturbed (h : g.Acts g') : g.Undisturbed g' := by
  cases h with
  | read thread look looks =>
    exact undisturbed_read thread look (fun side copy e he => (looks side copy e he).isChange_eq) g
  | enter thread => exact undisturbed_enter thread g
  | leave => exact undisturbed_leave _ g
  | nothing => exact .refl g

variable [OrderedSet S K]

/-- Every request does one of these things. -/
theorem acts_perform (mayStay : Bool) (request : SetRequest K) (g : TwinSet S K) :
    g.Acts (perform mayStay request g).2 := by
  cases request with
  | contains key thread =>
    change g.Acts (TwinSet.contains thread key g).2
    unfold TwinSet.contains
    exact .read thread _ (by simp [Event.IsLook])
  | size thread =>
    change g.Acts (TwinSet.size thread g).2
    unfold TwinSet.size
    exact .read thread _ (by simp [Event.IsLook])
  | isEmpty thread =>
    change g.Acts (TwinSet.isEmpty thread g).2
    unfold TwinSet.isEmpty
    exact .read thread _ (by simp [Event.IsLook])
  | keys thread =>
    change g.Acts (TwinSet.toList thread g).2
    unfold TwinSet.toList
    exact .read thread _ (by simp)
  | raise message thread =>
    let look : Side → S → List (Event K) × Except Fault Unit :=
      fun _ _ => ([], .error (.raised message))
    exact .read thread look (by simp [look])
  | enter thread =>
    dsimp only [perform]
    by_cases hstay : (mayStay && thread != 0) = true
    · rw [if_pos hstay]
      exact .enter thread
    · rw [if_neg hstay]
      exact .nothing
  | leave thread message =>
    dsimp only [perform]
    cases hfind : g.content.inside.find? (·.thread == thread) with
    | none => exact .nothing
    | some reader => exact .leave (List.mem_of_find?_eq_some hfind)
  | visible | otherSide | inspection pretty | view => exact .nothing

/-- No request changes a copy. -/
theorem undisturbed_perform (mayStay : Bool) (request : SetRequest K) (g : TwinSet S K) :
    g.Undisturbed (perform mayStay request g).2 := (acts_perform mayStay request g).undisturbed

/-- The moves of a script are requests, so nobody writes in a pause. -/
theorem undisturbing_turn (mayStay : Bool) (moves : List (Move (SetRequest K)))
    (did : List (Answer K)) : Undisturbing ((company (S := S) mayStay).turn moves did) :=
  undisturbing_turn_of_perform (undisturbed_perform mayStay) undisturbed_release moves did

theorem candid_turn (mayStay : Bool) (moves : List (Move (SetRequest K)))
    (did : List (Answer K)) : Candid ((company (S := S) mayStay).turn moves did) := by
  intro g fault g' h
  induction moves generalizing did g with
  | nil => simp [Company.turn] at h
  | cons move moves ih =>
    cases move with
    | ask request => exact ih _ _ h
    | raise message =>
      obtain ⟨-, rfl⟩ := Prod.mk.inj h
      exact ⟨.waitRaised did (release g).1, by simp [Gated.record, company], rfl⟩

theorem undisturbing_lastTurn (mayStay : Bool) :
    Undisturbing ((company (S := S) (K := K) mayStay).lastTurn) :=
  undisturbing_lastTurn_of_release undisturbed_release

theorem candid_lastTurn (mayStay : Bool) :
    Candid ((company (S := S) (K := K) mayStay).lastTurn) := by
  intro g fault g' h
  dsimp only [Company.lastTurn] at h
  split at h
  · obtain ⟨-, rfl⟩ := Prod.mk.inj h
    exact ⟨.stuck, by simp [Gated.record], rfl⟩
  · simp at h

/-- Nobody writes while others follow a script, and what breaks off says so. -/
theorem polls_of_script (mayStay : Bool) (script : Script (SetRequest K)) :
    ∀ poll ∈ (company (S := S) mayStay).polls script, Undisturbing poll ∧ Candid poll := by
  intro poll hpoll
  rcases List.mem_append.mp hpoll with hpoll | hpoll
  · obtain ⟨moves, -, rfl⟩ := List.mem_map.mp hpoll
    exact ⟨undisturbing_turn mayStay moves [], candid_turn mayStay moves []⟩
  · rw [List.mem_singleton.mp hpoll]
    exact ⟨undisturbing_lastTurn mayStay, candid_lastTurn mayStay⟩

/-- How a write can end. -/
inductive Wrote (change : Change K) (polls : List (Poll K (Twin S))) (g : TwinSet S K) :
    Except Fault Bool → TwinSet S K → Prop
  /-- The change of the hidden copy has no effect or breaks off. -/
  | refused {outcome : Except Fault Bool} {g' : TwinSet S K}
      (applied : OrderedSet.apply change g.hiddenCopy = (outcome, g'.hiddenCopy))
      (ineffective : outcome ≠ .ok true)
      (selector : g'.gate.selector = g.gate.selector)
      (visible : g'.visibleCopy = g.visibleCopy)
      (changes : g'.changes =
        g.changes ++ [.changed change g.gate.selector.other outcome.toOption]) :
      Wrote change polls g outcome g'
  /-- The hidden copy was changed and published, and the wait broke off. -/
  | interrupted {fault : Fault} {g' : TwinSet S K}
      (applied : OrderedSet.apply change g.hiddenCopy = (.ok true, g'.visibleCopy))
      (selector : g'.gate.selector = g.gate.selector.other)
      (hidden : g'.hiddenCopy = g.visibleCopy)
      (unwound : (∀ poll ∈ polls, Candid poll) → ∃ e ∈ g'.events, e.unwinds = true) :
      Wrote change polls g (.error fault) g'
  /-- The hidden copy was changed and published, and the other one was changed too. -/
  | replayed {second : Except Fault Bool} {g' : TwinSet S K}
      (applied : OrderedSet.apply change g.hiddenCopy = (.ok true, g'.visibleCopy))
      (replayed : OrderedSet.apply change g.visibleCopy = (second, g'.hiddenCopy))
      (selector : g'.gate.selector = g.gate.selector.other)
      (changes : g'.changes = g.changes ++
        [.changed change g.gate.selector.other (some true),
          .changed change g.gate.selector second.toOption]) :
      Wrote change polls g (afterReplay second) g'

/-- A change of a copy replaces it and is noted. -/
theorem mutate_spec {change : Change K} {side : Side} {outcome : Except Fault Bool} {copy : S}
    (h : OrderedSet.apply change (g.content.copies.get side) = (outcome, copy)) :
    ∃ g', mutate side change g = (outcome, g') ∧ g'.gate = g.gate ∧
      g'.content.copies = g.content.copies.set side copy ∧
      g'.changes = g.changes ++ [.changed change side outcome.toOption] := by
  refine ⟨Gated.record (.changed change side outcome.toOption)
    { g with content.copies := g.content.copies.set side copy }, ?_, rfl, rfl, ?_⟩
  · dsimp only [mutate]
    rw [h]
  · simp [changes, Gated.record, Event.isChange]

variable {change : Change K} {polls : List (Poll K (Twin S))} {g₀ g₂ : TwinSet S K}
  {outcome : Except Fault Bool}

/-- The first change of a write is made to the hidden copy. -/
theorem mutate_hidden (h : mutate g.gate.selector.other change g = (outcome, g')) :
    OrderedSet.apply change g.hiddenCopy = (outcome, g'.hiddenCopy) ∧
      g'.visibleCopy = g.visibleCopy ∧ g'.gate = g.gate ∧
      g'.changes = g.changes ++ [.changed change g.gate.selector.other outcome.toOption] := by
  rcases happlied : OrderedSet.apply change g.hiddenCopy with ⟨outcome', copy⟩
  obtain ⟨g₁, hmutate, hgate, hcopies, hchanges⟩ := mutate_spec happlied
  obtain ⟨rfl, rfl⟩ := Prod.mk.inj (hmutate.symm.trans h)
  refine ⟨?_, ?_, hgate, hchanges⟩
  · rw [hiddenCopy, hgate, hcopies, Copies.get_set]
  · rw [visibleCopy, hgate, hcopies, Copies.get_set_other, visibleCopy]

/-- What a change has done that was made to the hidden copy and published, and to no other. -/
structure Exposed (change : Change K) (g g' : TwinSet S K) : Prop where
  /-- New readers look at the copy that was hidden, as the change has left it. -/
  visible : OrderedSet.apply change g.hiddenCopy = (.ok true, g'.visibleCopy)
  /-- The copy that was visible is as it was. -/
  hidden : g'.hiddenCopy = g.visibleCopy
  /-- New readers look at the other side. -/
  selector : g'.gate.selector = g.gate.selector.other
  /-- The change was made once. -/
  changes : g'.changes = g.changes ++ [.changed change g.gate.selector.other (some true)]

/-- A published change stays exposed while nobody else writes. -/
theorem Exposed.undisturbed (h : Exposed change g g') (hundisturbed : g'.Undisturbed g'') :
    Exposed change g g'' where
  visible := by rw [hundisturbed.visibleCopy, h.visible]
  hidden := hundisturbed.hiddenCopy.trans h.hidden
  selector := hundisturbed.selector.trans h.selector
  changes := hundisturbed.changes.trans h.changes

theorem Published.exposed (h : Published change g g₀) : Exposed change g g₀ := by
  obtain ⟨g₁, hmutate, rfl⟩ := h
  obtain ⟨happlied, hvisible, hgate, hchanges⟩ := mutate_hidden hmutate
  refine ⟨?_, ?_, rfl, hchanges⟩
  · rw [happlied, hiddenCopy, hgate]
    rfl
  · rw [← hvisible, hiddenCopy, visibleCopy, hgate]
    change g₁.content.copies.get g.gate.selector.other.other = _
    rw [Side.other_other]

/-- After the waits of a write its change is still all that it has done. -/
theorem Published.exposed_toggle (h : Published change g g₀)
    (hpolls : ∀ poll ∈ polls, Undisturbing poll) : Exposed change g (g₀.toggle polls).2 :=
  h.exposed.undisturbed (undisturbed_toggle hpolls g₀)

/-- The second change of a write finds the copy that was visible, as the first one has left it. -/
theorem Exposed.replayed (h : Exposed change g g₂)
    (hmutate : mutate g.gate.selector change g₂ = (outcome, g')) :
    OrderedSet.apply change g.hiddenCopy = (.ok true, g'.visibleCopy) ∧
      OrderedSet.apply change g.visibleCopy = (outcome, g'.hiddenCopy) ∧ g'.gate = g₂.gate ∧
      g'.changes = g.changes ++ [.changed change g.gate.selector.other (some true),
        .changed change g.gate.selector outcome.toOption] := by
  have hkept : g₂.content.copies.get g.gate.selector = g.visibleCopy := by
    rw [← h.hidden, hiddenCopy, h.selector, Side.other_other]
  rcases happlied : OrderedSet.apply change g.visibleCopy with ⟨outcome', copy⟩
  rw [← hkept] at happlied
  obtain ⟨g₃, hmutate', hgate, hcopies, hchanges⟩ := mutate_spec happlied
  obtain ⟨rfl, rfl⟩ := Prod.mk.inj (hmutate'.symm.trans hmutate)
  refine ⟨?_, ?_, hgate, ?_⟩
  · rw [h.visible, visibleCopy, visibleCopy, hgate, h.selector, hcopies, Copies.get_other_set]
  · rw [hiddenCopy, hgate, h.selector, Side.other_other, hcopies, Copies.get_set]
  · rw [hchanges, h.changes, List.append_assoc]
    rfl

/-- A write during which nobody else writes ends in one of these ways. -/
theorem wrote_write (hpolls : ∀ poll ∈ polls, Undisturbing poll) (g : TwinSet S K) :
    g.Wrote change polls (write change polls g).1 (write change polls g).2 := by
  have hproceeds := proceeds_write change polls g
  generalize write change polls g = result at hproceeds ⊢
  cases hproceeds with
  | ineffective ineffective =>
    obtain ⟨happlied, hvisible, hgate, hchanges⟩ := mutate_hidden (g := g) rfl
    exact .refused happlied ineffective (congrArg Gate.selector hgate) hvisible hchanges
  | interrupted published broken =>
    have hexposed := published.exposed_toggle hpolls
    rw [broken] at hexposed
    exact .interrupted hexposed.visible hexposed.selector hexposed.hidden
      fun hcandid => unwinds_of_toggle hcandid broken
  | replayed published waited =>
    have hexposed := published.exposed_toggle hpolls
    rw [waited] at hexposed
    obtain ⟨hvisible, hhidden, hgate, hchanges⟩ := hexposed.replayed rfl
    have hselector := (congrArg Gate.selector hgate).trans hexposed.selector
    exact .replayed hvisible hhidden hselector hchanges

end TwinSet

end LeftRight
