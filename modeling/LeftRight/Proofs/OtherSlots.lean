import LeftRight.Proofs.Alike
import LeftRight.Proofs.Toggling
import LeftRight.Proofs.Patience

/-!
# Sets with readers on other slots

A twin set in which readers are spread over more slots or fewer, by one assigner or by another, goes
as any other: readers see the same, writers wait for as many polls and return the same, and what
breaks off does so in both. This holds of what others ask and of writes in whose pauses
they do, whether those who are inside when a wait breaks off are let go or stay.
-/

namespace LeftRight

/-- What there is to know of a reader apart from its slot. -/
def Reader.unslotted (r : Reader) : Nat × Version × Side := (r.thread, r.version, r.side)

/-- An assigner that keeps to so many slots, whatever the call and the thread. -/
def Assigner.InRange (assigner : Assigner) (slots : Nat) : Prop :=
  ∀ call thread, ∃ slot < slots, assigner.slot call thread slots = .ok slot

/-- Slots found by remainder are in range, whatever they are found from. -/
theorem Assigner.inRange_remainder {slots : Nat} (h : 0 < slots) (hash : Nat → Nat → Nat) :
    Assigner.InRange ⟨fun call thread slots => remainderSlot slots (hash call thread)⟩ slots :=
  fun call thread => ⟨hash call thread % slots, Nat.mod_lt _ h, if_neg h.ne'⟩

/-- Two sets of copies of which the readers differ in their slots only. -/
structure Twin.Alike {S : Type} (t : Terms) (c₁ c₂ : Twin S) : Prop where
  copies : c₁.copies = c₂.copies
  readers : c₁.inside.map Reader.unslotted = c₂.inside.map Reader.unslotted
  inRange₁ : c₁.assigner.InRange t.slots₁
  inRange₂ : c₂.assigner.InRange t.slots₂

/-- The thread that enters for a request, if any does. -/
def SetRequest.entering {K : Type} (mayStay : Bool) : SetRequest K → Option Nat
  | .contains _ thread | .size thread | .isEmpty thread | .keys thread | .raise _ thread =>
    some thread
  | .enter thread => if mayStay && thread != 0 then some thread else none
  | _ => none

/-- Who is found first is taken out first. -/
theorem erase_of_find? {α : Type} [BEq α] [LawfulBEq α] {p : α → Bool} {l : List α} {a : α}
    (h : l.find? p = some a) : l.erase a = l.eraseP p := by
  obtain ⟨hp, before, after, rfl, hbefore⟩ := List.find?_eq_some_iff_append.mp h
  have hnot : a ∉ before := fun hmem => by simpa [hp] using hbefore a hmem
  have hnone : ∀ b ∈ before, ¬ p b = true := fun b hb => by simpa using hbefore b hb
  rw [List.erase_append_right _ hnot, List.erase_cons_head, List.eraseP_append_right _ hnone,
    List.eraseP_cons_of_pos hp]

namespace TwinSet

open Gated

section Readers

variable {S K α : Type} {t : Terms} {g g₁ g₂ : TwinSet S K}

/-- Two sets that differ in the slots of their readers only. -/
abbrev Alike (t : Terms) (g₁ g₂ : TwinSet S K) : Prop := Gated.Alike t (Twin.Alike t) g₁ g₂

/-- Whether there is room for whoever enters for a request. -/
def RoomFor (mayStay : Bool) (request : SetRequest K) (g : TwinSet S K) : Prop :=
  ∀ thread, request.entering mayStay = some thread → Roomy (enter thread g).2

instance (mayStay : Bool) (request : SetRequest K) (g : TwinSet S K) :
    Decidable (RoomFor mayStay request g) :=
  inferInstanceAs (Decidable (∀ thread, request.entering mayStay = some thread → _))

theorem versions_of_readers
    (h : g₁.content.inside.map Reader.unslotted = g₂.content.inside.map Reader.unslotted) :
    versions g₁ = versions g₂ := by
  have hversions := congrArg (List.map fun r => r.2.1) h
  rw [List.map_map, List.map_map] at hversions
  rw [versions_eq_map, versions_eq_map]
  exact hversions

/-- Fewer readers need less room. -/
theorem roomy_of_sublist (h : g₂.content.inside.Sublist g₁.content.inside) (hroomy : Roomy g₁) :
    Roomy g₂ := by
  intro v
  refine ((?_ : (versions g₂).Sublist (versions g₁)).count_le v).trans_lt (hroomy v)
  rw [versions_eq_map, versions_eq_map]
  exact h.map _

/-- The set in which a reader is inside that was given a slot. -/
def entered (thread slot : Nat) (g : TwinSet S K) : TwinSet S K :=
  { g with
    gate.indicator := g.gate.indicator.adjust slot g.gate.indicator.current (· + 1)
    content.assigned := g.content.assigned + 1
    content.inside := ⟨thread, slot, g.gate.indicator.current, g.gate.selector⟩ :: g.content.inside
    events := g.events ++ [.slot thread g.gate.indicator.size slot] }

theorem enter_of_slot {thread slot : Nat}
    (hslot : g.content.assigner.slot g.content.assigned thread g.gate.indicator.size = .ok slot)
    (hlt : slot < g.gate.indicator.size) :
    enter thread g = (.ok ⟨thread, slot, g.gate.indicator.current, g.gate.selector⟩,
      entered thread slot g) := by
  have harrive := Indicator.arrive_eq_ok_iff.mpr ⟨hlt, Eq.refl g.gate.indicator.current, rfl⟩
  simp only [enter, hslot, Gated.record, harrive, entered]

/-- Who enters and may leave again is told what the look tells. -/
theorem read_of_enter {thread : Nat} {r : Reader} (henter : enter thread g = (.ok r, g₁))
    (look : Side → S → List (Event K) × Except Fault α)
    (hleave : (leave r { g₁ with
      events := g₁.events ++ (look r.side (g₁.content.copies.get r.side)).1 }).1 = .ok ()) :
    read thread look g = ((look r.side (g₁.content.copies.get r.side)).2,
      (leave r { g₁ with
        events := g₁.events ++ (look r.side (g₁.content.copies.get r.side)).1 }).2) := by
  simp only [read, henter]
  split <;> rename_i hleft <;> rw [hleft] at hleave
  · cases hleave
  · rw [hleft]

theorem serves_entered (h : Serves g) {thread slot : Nat} (hlt : slot < g.gate.indicator.size)
    (hroom : Roomy (entered thread slot g)) : Serves (entered thread slot g) :=
  ⟨h.accounted.adjust_add hlt, hroom⟩

/-- Who enters both sets looks at the same copy and is counted under the same version. -/
theorem Alike.enter (h : Alike t g₁ g₂) {thread : Nat} (hroom : Roomy (enter thread g₁).2) :
    ∃ r₁ r₂ g₁' g₂', enter thread g₁ = (.ok r₁, g₁') ∧ enter thread g₂ = (.ok r₂, g₂') ∧
      r₁.unslotted = r₂.unslotted ∧ r₁.side = g₁.gate.selector ∧
      g₁'.content.inside = r₁ :: g₁.content.inside ∧
      g₂'.content.inside = r₂ :: g₂.content.inside ∧
      g₁'.content.copies = g₁.content.copies ∧ Alike t g₁' g₂' := by
  obtain ⟨slot₁, hlt₁, hslot₁⟩ := h.content.inRange₁ g₁.content.assigned thread
  obtain ⟨slot₂, hlt₂, hslot₂⟩ := h.content.inRange₂ g₂.content.assigned thread
  rw [← h.size₁] at hlt₁ hslot₁
  rw [← h.size₂] at hlt₂ hslot₂
  have henter₁ := enter_of_slot hslot₁ hlt₁
  have henter₂ := enter_of_slot hslot₂ hlt₂
  rw [henter₁] at hroom
  have hreaders : (entered thread slot₁ g₁).content.inside.map Reader.unslotted =
      (entered thread slot₂ g₂).content.inside.map Reader.unslotted := by
    simp only [entered, List.map_cons, Reader.unslotted, h.current, h.selector]
    exact congrArg _ h.content.readers
  have hversions := versions_of_readers hreaders
  refine ⟨_, _, _, _, henter₁, henter₂, ?_, rfl, rfl, rfl, rfl, {
    selector := h.selector
    current := h.current
    slowDrain := h.slowDrain
    strategy := h.strategy
    versions := hversions
    content := ⟨h.content.copies, hreaders, h.content.inRange₁, h.content.inRange₂⟩
    size₁ := (Indicator.size_adjust ..).trans h.size₁
    size₂ := (Indicator.size_adjust ..).trans h.size₂
    serves₁ := serves_entered h.serves₁ hlt₁ hroom
    serves₂ := serves_entered h.serves₂ hlt₂ (roomy_of_versions hroom hversions)
    events := List.rel_append h.events (.cons ?_ .nil) }⟩
  · simp only [Reader.unslotted, h.current, h.selector]
  · rw [h.size₁, h.size₂]
    exact .slot thread (h.size₁ ▸ hlt₁) (h.size₂ ▸ hlt₂)

theorem serves_leave (h : Serves g) {r : Reader} (hr : r ∈ g.content.inside) :
    Serves (leave r g).2 where
  accounted := (stirs_leave hr).accounted h.accounted
  roomy := roomy_of_sublist (List.erase_sublist ..) h.roomy

/-- Who is inside both sets, as a reader of the same kind, may leave both. -/
theorem Alike.leave (h : Alike t g₁ g₂) {r₁ r₂ : Reader} (hr₁ : r₁ ∈ g₁.content.inside)
    (hr₂ : r₂ ∈ g₂.content.inside)
    (hrest : (g₁.content.inside.erase r₁).map Reader.unslotted =
      (g₂.content.inside.erase r₂).map Reader.unslotted) :
    (leave r₁ g₁).1 = .ok () ∧ (leave r₂ g₂).1 = .ok () ∧
      Alike t (leave r₁ g₁).2 (leave r₂ g₂).2 :=
  ⟨h.serves₁.depart_ok hr₁, h.serves₂.depart_ok hr₂, {
    selector := h.selector
    current := by
      refine (Indicator.current_depart ..).trans (h.current.trans ?_)
      exact (Indicator.current_depart ..).symm
    slowDrain := h.slowDrain
    strategy := h.strategy
    versions := versions_of_readers hrest
    content := ⟨h.content.copies, hrest, h.content.inRange₁, h.content.inRange₂⟩
    size₁ := (Indicator.size_depart ..).trans h.size₁
    size₂ := (Indicator.size_depart ..).trans h.size₂
    serves₁ := serves_leave h.serves₁ hr₁
    serves₂ := serves_leave h.serves₂ hr₂
    events := h.events }⟩

/-- A look that notes nothing of slots finds the same in both sets, even if it breaks off. -/
theorem Alike.read (h : Alike t g₁ g₂) {thread : Nat} (hroom : Roomy (TwinSet.enter thread g₁).2)
    {look : Side → S → List (Event K) × Except Fault α}
    (hplain : ∀ side copy, ∀ e ∈ (look side copy).1, e.IsPlain) :
    ∃ outcome g₁' g₂', read thread look g₁ = (outcome, g₁') ∧
      read thread look g₂ = (outcome, g₂') ∧
      outcome = (look g₁.gate.selector g₁.visibleCopy).2 ∧ Alike t g₁' g₂' := by
  obtain ⟨r₁, r₂, u₁, u₂, henter₁, henter₂, hunslotted, hside, hinside₁, hinside₂, hcopies,
    halike⟩ := h.enter hroom
  have hside₂ : r₂.side = g₁.gate.selector := by
    have hsides : r₁.side = r₂.side := congrArg (·.2.2) hunslotted
    rw [← hsides, hside]
  have hcopies₂ : u₂.content.copies = g₁.content.copies := halike.content.copies ▸ hcopies
  have hnoted : List.Forall₂ (Event.Alike t) (look g₁.gate.selector g₁.visibleCopy).1
      (look g₁.gate.selector g₁.visibleCopy).1 :=
    List.forall₂_same.mpr fun e he => .same (hplain _ _ e he)
  have hrest : (u₁.content.inside.erase r₁).map Reader.unslotted =
      (u₂.content.inside.erase r₂).map Reader.unslotted := by
    rw [hinside₁, hinside₂, List.erase_cons_head, List.erase_cons_head]
    exact h.content.readers
  obtain ⟨hleave₁, hleave₂, hleft⟩ := Alike.leave (halike.note hnoted)
    (hinside₁ ▸ List.mem_cons_self ..) (hinside₂ ▸ List.mem_cons_self ..) hrest
  have hread₁ := read_of_enter henter₁ look
  have hread₂ := read_of_enter henter₂ look
  rw [hside, hcopies] at hread₁
  rw [hside₂, hcopies₂] at hread₂
  exact ⟨_, _, _, hread₁ hleave₁, hread₂ hleave₂, rfl, hleft⟩

/-- When all have left who are inside, nobody is counted, and nothing else has changed. -/
theorem leaveAll_eq (haccounted : Accounted g) {readers : List Reader}
    (hperm : readers.Perm g.content.inside) :
    ∃ indicator : Indicator, leaveAll readers g =
        { g with gate.indicator := indicator, content.inside := [] } ∧
      indicator.current = g.gate.indicator.current ∧
      indicator.size = g.gate.indicator.size ∧ indicator.Accounts [] := by
  induction readers generalizing g with
  | nil =>
    have hinside : g.content.inside = [] := hperm.nil_eq.symm
    refine ⟨g.gate.indicator, ?_, rfl, rfl, ?_⟩
    · obtain ⟨gate, strategy, ⟨copies, inside, assigner, assigned⟩, events⟩ := g
      cases hinside
      rfl
    · rw [Accounted, places, Gated.inside] at haccounted
      exact haccounted.perm (.of_eq (congrArg (List.map Placed.place) hinside))
  | cons r readers ih =>
    have hr : r ∈ g.content.inside := hperm.subset (List.mem_cons_self ..)
    have hrest : readers.Perm (leave r g).2.content.inside :=
      (List.cons_perm_iff_perm_erase.mp hperm).2
    obtain ⟨indicator, hleave, hcurrent, hsize, hnobody⟩ :=
      ih ((stirs_leave hr).accounted haccounted) hrest
    exact ⟨indicator, hleave, hcurrent.trans (Indicator.current_depart ..),
      hsize.trans (Indicator.size_depart ..), hnobody⟩

/-- The same threads are let go from both sets, in the same order, and nobody stays inside. -/
theorem Alike.release (h : Alike t g₁ g₂) :
    (release g₁).1 = (release g₂).1 ∧ Alike t (release g₁).2 (release g₂).2 ∧
      (release g₁).2.content.inside = [] ∧ ((release g₁).1 = [] → g₁.content.inside = []) := by
  have hsorted₁ := List.mergeSort_perm g₁.content.inside fun a b => a.thread ≤ b.thread
  have hsorted₂ := List.mergeSort_perm g₂.content.inside fun a b => a.thread ≤ b.thread
  obtain ⟨indicator₁, hleft₁, hcurrent₁, hsize₁, hnobody₁⟩ :=
    leaveAll_eq h.serves₁.accounted hsorted₁
  obtain ⟨indicator₂, hleft₂, hcurrent₂, hsize₂, hnobody₂⟩ :=
    leaveAll_eq h.serves₂.accounted hsorted₂
  have hnames (g : TwinSet S K) : (TwinSet.release g).1 =
      ((g.content.inside.map Reader.unslotted).mergeSort fun a b => a.1 ≤ b.1).map (·.1) := by
    rw [← List.map_mergeSort (r := fun a b : Reader => a.thread ≤ b.thread) fun _ _ _ _ => rfl,
      List.map_map]
    rfl
  refine ⟨by rw [hnames, hnames, h.content.readers], ?_, ?_, fun hnone => ?_⟩
  · unfold TwinSet.release
    dsimp only
    rw [hleft₁, hleft₂]
    exact {
      selector := h.selector
      current := hcurrent₁.trans (h.current.trans hcurrent₂.symm)
      slowDrain := h.slowDrain
      strategy := h.strategy
      versions := rfl
      content := ⟨h.content.copies, rfl, h.content.inRange₁, h.content.inRange₂⟩
      size₁ := hsize₁.trans h.size₁
      size₂ := hsize₂.trans h.size₂
      serves₁ := ⟨hnobody₁, roomy_of_deserted rfl⟩
      serves₂ := ⟨hnobody₂, roomy_of_deserted rfl⟩
      events := h.events }
  · unfold TwinSet.release
    dsimp only
    rw [hleft₁]
  · have hlength := hsorted₁.length_eq
    rw [List.map_eq_nil_iff.mp hnone] at hlength
    exact List.eq_nil_of_length_eq_zero hlength.symm

theorem inspection_eq (h : Serves g) : inspection g =
    .ok (.ofGate ((viewOf g).inspection g.gate.slowDrain g.gate.indicator.size)) := by
  rw [inspection, h.inspection_eq]
  rfl

/-- A question is answered alike, as nobody is told of slots. -/
theorem Alike.ask (h : Alike t g₁ g₂) {thread : Nat}
    (hroom : Roomy (TwinSet.enter thread g₁).2)
    (look : Side → S → List (Event K) × Except Fault α)
    (hplain : ∀ side copy, ∀ e ∈ (look side copy).1, e.IsPlain)
    (hmay : ∀ side copy fault, (look side copy).2 = .error fault → t.may fault)
    {answer : α → Answer K} (hanswer : ∀ a fault, answer a ≠ .fault fault) :
    (Answer.ofOutcome answer (TwinSet.read thread look g₁).1).Alike t
        (.ofOutcome answer (TwinSet.read thread look g₂).1) ∧
      Alike t (TwinSet.read thread look g₁).2 (TwinSet.read thread look g₂).2 := by
  obtain ⟨outcome, u₁, u₂, hread₁, hread₂, rfl, halike⟩ := h.read hroom hplain
  rw [hread₁, hread₂]
  exact ⟨Answer.alike_ofOutcome hanswer (hmay _ _), halike⟩

end Readers

section Requests

variable {S K : Type} [OrderedSet S K] {t : Terms} {g₁ g₂ : TwinSet S K}

theorem seenBy_eq {r₁ r₂ : Reader} (hreader : r₁.unslotted = r₂.unslotted)
    (hcopies : g₁.content.copies = g₂.content.copies) : seenBy r₁ g₁ = seenBy r₂ g₂ := by
  have hside : r₁.side = r₂.side := congrArg (·.2.2) hreader
  rw [seenBy, seenBy, hside, hcopies]

/-- A thread that is to enter enters both sets, if it may. -/
theorem Alike.perform_enter (h : Alike t g₁ g₂) {mayStay : Bool} {thread : Nat}
    (hroom : RoomFor mayStay (.enter thread) g₁) :
    (perform mayStay (.enter thread) g₁).1.Alike t (perform mayStay (.enter thread) g₂).1 ∧
      Alike t (perform mayStay (.enter thread) g₁).2 (perform mayStay (.enter thread) g₂).2 := by
  dsimp only [TwinSet.perform]
  by_cases hstay : (mayStay && thread != 0) = true
  · rw [if_pos hstay, if_pos hstay]
    obtain ⟨r₁, r₂, u₁, u₂, henter₁, henter₂, hreader, -, -, -, -, halike⟩ :=
      h.enter (hroom thread (if_pos hstay))
    rw [henter₁, henter₂]
    refine ⟨?_, halike⟩
    simp only [Answer.ofOutcome, seenBy_eq hreader halike.content.copies]
    exact .same nofun
  · rw [if_neg hstay, if_neg hstay]
    exact ⟨.same nofun, h⟩

/-- A thread that is to leave leaves both sets or is inside neither. -/
theorem Alike.perform_leave (hraised : ∀ message, t.may (.raised message)) (h : Alike t g₁ g₂)
    (mayStay : Bool) (thread : Nat) (message : Option String) :
    (perform mayStay (.leave thread message) g₁).1.Alike t
        (perform mayStay (.leave thread message) g₂).1 ∧
      Alike t (perform mayStay (.leave thread message) g₁).2
        (perform mayStay (.leave thread message) g₂).2 := by
  have hfind : (g₁.content.inside.find? (·.thread == thread)).map Reader.unslotted =
      (g₂.content.inside.find? (·.thread == thread)).map Reader.unslotted := by
    have hfound := congrArg (List.find? (·.1 == thread)) h.content.readers
    rw [List.find?_map, List.find?_map] at hfound
    exact hfound
  rcases hfind₁ : g₁.content.inside.find? (·.thread == thread) with _ | r₁ <;>
    rcases hfind₂ : g₂.content.inside.find? (·.thread == thread) with _ | r₂ <;>
    rw [hfind₁, hfind₂] at hfind <;> simp only [TwinSet.perform, hfind₁, hfind₂]
  · exact ⟨.same nofun, h⟩
  · cases hfind
  · cases hfind
  · have hreader : r₁.unslotted = r₂.unslotted := Option.some.inj hfind
    have hrest : (g₁.content.inside.erase r₁).map Reader.unslotted =
        (g₂.content.inside.erase r₂).map Reader.unslotted := by
      have herased := congrArg (List.eraseP (·.1 == thread)) h.content.readers
      rw [List.eraseP_map, List.eraseP_map] at herased
      rw [erase_of_find? hfind₁, erase_of_find? hfind₂]
      exact herased
    obtain ⟨hleave₁, hleave₂, halike⟩ := Alike.leave h (List.mem_of_find?_eq_some hfind₁)
      (List.mem_of_find?_eq_some hfind₂) hrest
    refine ⟨?_, halike⟩
    rw [hleave₁, hleave₂, seenBy_eq hreader h.content.copies]
    refine Answer.alike_ofOutcome nofun fun fault hfault => ?_
    cases message with
    | none => cases hfault
    | some message =>
      cases hfault
      exact hraised message

/-- A request to both sets is answered alike and leaves them alike. -/
theorem Alike.perform (hraised : ∀ message, t.may (.raised message)) (h : Alike t g₁ g₂)
    {mayStay : Bool} {request : SetRequest K} (hroom : RoomFor mayStay request g₁) :
    (perform mayStay request g₁).1.Alike t (perform mayStay request g₂).1 ∧
      Alike t (perform mayStay request g₁).2 (perform mayStay request g₂).2 := by
  cases request with
  | contains key thread =>
    exact h.ask (hroom thread rfl) (fun side copy =>
      ([.looked key side (OrderedSet.contains key copy)], .ok (OrderedSet.contains key copy)))
      (by simp [Event.IsPlain]) nofun nofun
  | size thread =>
    exact h.ask (hroom thread rfl) (fun side copy =>
      ([.measured side (OrderedSet.size copy)], .ok (OrderedSet.size copy)))
      (by simp [Event.IsPlain]) nofun nofun
  | isEmpty thread =>
    exact h.ask (hroom thread rfl) (fun side copy =>
      ([.measured side (OrderedSet.size copy)], .ok (OrderedSet.isEmpty copy)))
      (by simp [Event.IsPlain]) nofun nofun
  | keys thread =>
    exact h.ask (hroom thread rfl) (fun _ copy => ([], .ok (OrderedSet.toList copy))) (by simp)
      nofun nofun
  | raise message thread =>
    refine h.ask (hroom thread rfl) (fun _ _ => ([], Except.error (α := Unit) (.raised message)))
      (by simp) ?_ nofun
    rintro _ _ _ ⟨⟩
    exact hraised message
  | enter thread => exact h.perform_enter hroom
  | leave thread message => exact h.perform_leave hraised mayStay thread message
  | visible =>
    refine ⟨?_, h⟩
    simp only [TwinSet.perform, h.selector]
    exact .same nofun
  | otherSide =>
    refine ⟨?_, h⟩
    simp only [TwinSet.perform, h.selector]
    exact .same nofun
  | inspection pretty =>
    refine ⟨?_, h⟩
    simp only [TwinSet.perform, inspection_eq h.serves₁, inspection_eq h.serves₂, h.size₁, h.size₂,
      ← h.slowDrain, ← h.viewOf_eq]
    exact .set pretty _ _
  | view =>
    obtain ⟨view, hview₁, hview₂⟩ := h.view_eq
    refine ⟨?_, h⟩
    simp only [TwinSet.perform, hview₁, hview₂]
    exact .same nofun

/-- Those who use the sets match. -/
theorem matched_company (hraised : ∀ message, t.may (.raised message)) (mayStay : Bool) :
    Company.Matched t (Twin.Alike t) (RoomFor mayStay) (company (S := S) (K := K) mayStay)
      (company mayStay) where
  perform h hroom := Alike.perform hraised h hroom
  release h := ⟨(Alike.release h).1, (Alike.release h).2.1⟩

/-- When a script is used up, everybody is let go from both sets. -/
theorem closing_company (hraised : ∀ message, t.may (.raised message)) (mayStay : Bool) :
    Company.Closing t (Twin.Alike t) (fun _ => False) (company (S := S) (K := K) mayStay).lastTurn
      (company mayStay).lastTurn :=
  (matched_company hraised mayStay).closing fun h => (Alike.release h).2.2

/-- Those who use a set besides its writer, when nobody is let go: whoever is inside when a wait
breaks off, or when a script is used up, stays inside. -/
def lingering (mayStay : Bool) : Company (SetRequest K) K (Twin S) where
  perform := perform mayStay
  release g := ([], g)

/-- Those who go along with the writers of two sets that are alike. -/
structure Accompanies (t : Terms) (own : Fault → Prop) (mayStay : Bool)
    (crew : Company (SetRequest K) K (Twin S)) : Prop where
  /-- They do the same in both sets. -/
  matched : Company.Matched t (Twin.Alike t) (RoomFor mayStay) crew crew
  /-- So they do after a script, or both writers are stuck. -/
  closing : Company.Closing t (Twin.Alike t) own crew.lastTurn crew.lastTurn
  /-- They write nothing. -/
  undisturbing : ∀ moves did, Undisturbing (crew.turn moves did)
  /-- Nor do they after a script. -/
  undisturbing_last : Undisturbing crew.lastTurn

theorem accompanies_company (hraised : ∀ message, t.may (.raised message)) (mayStay : Bool) :
    Accompanies t (fun _ => False) mayStay (company (S := S) (K := K) mayStay) where
  matched := matched_company hraised mayStay
  closing := closing_company hraised mayStay
  undisturbing := undisturbing_turn mayStay
  undisturbing_last := undisturbing_lastTurn mayStay

theorem accompanies_lingering (hraised : ∀ message, t.may (.raised message)) (mayStay : Bool) :
    Accompanies t (· = .stuck) mayStay (lingering (S := S) (K := K) mayStay) where
  matched := ⟨fun h hroom => Alike.perform hraised h hroom, fun h => ⟨rfl, h⟩⟩
  closing := Company.closing_of_nobody t (Twin.Alike t) (fun _ => rfl) fun _ => rfl
  undisturbing := undisturbing_turn_of_perform (undisturbed_perform mayStay) .refl
  undisturbing_last := undisturbing_lastTurn_of_release .refl

end Requests

section Writes

variable {S K : Type} [OrderedSet S K] {t : Terms} {mayStay : Bool} {change : Change K}
  {script : Script (SetRequest K)} {own own' : Fault → Prop} {last₁ last₂ : Poll K (Twin S)}
  {crew : Company (SetRequest K) K (Twin S)} {g g₀ g₁ g₂ : TwinSet S K}

/-- The reasons for which a write can break off: a pause does, the change of a copy does, or the
second copy refuses what the first one has accepted. -/
inductive BreaksOff (change : Change K) (script : Script (SetRequest K)) (own : Fault → Prop)
    (g : TwinSet S K) : Fault → Prop
  /-- A pause breaks off. -/
  | pause {fault : Fault} (reason : Company.RaisedIn script fault ∨ own fault) :
    BreaksOff change script own g fault
  /-- The change of a copy breaks off. -/
  | copy {fault : Fault} {c c' : S} (applied : OrderedSet.apply change c = (.error fault, c')) :
    BreaksOff change script own g fault
  /-- The copies differ. -/
  | diverged {c c' : S} (accepted : OrderedSet.apply change g.hiddenCopy = (.ok true, c))
    (refused : OrderedSet.apply change g.visibleCopy = (.ok false, c')) :
    BreaksOff change script own g .diverged

/-- What fits during a write fits while it waits. -/
theorem fitsDuring_toggle
    (hfits : crew.FitsDuring (RoomFor mayStay) script fun polls => write change polls g)
    (hpublished : Published change g g₀) :
    crew.FitsDuring (RoomFor mayStay) script fun polls => g₀.toggle polls :=
  fun n moves u hmoves hpause =>
    hfits n moves u hmoves fun fault => hpublished.write_of_error (hpause fault)

/-- A change of the same copy of both sets. -/
theorem Alike.mutate (h : Alike t g₁ g₂) (side : Side) (change : Change K) :
    (mutate side change g₁).1 = (mutate side change g₂).1 ∧
      Alike t (mutate side change g₁).2 (mutate side change g₂).2 := by
  have happly : OrderedSet.apply change (g₁.content.copies.get side) =
      OrderedSet.apply change (g₂.content.copies.get side) := by rw [h.content.copies]
  have houtcome : (TwinSet.mutate side change g₁).1 = (TwinSet.mutate side change g₂).1 := by
    change (OrderedSet.apply change _).1 = (OrderedSet.apply change _).1
    rw [happly]
  refine ⟨houtcome, ?_⟩
  have hcopies {copies₁ copies₂ : Copies S} (hsame : copies₁ = copies₂) :
      Alike t { g₁ with content.copies := copies₁ } { g₂ with content.copies := copies₂ } :=
    { h with
      content := ⟨hsame, h.content.readers, h.content.inRange₁, h.content.inRange₂⟩
      serves₁ := h.serves₁.congr rfl rfl
      serves₂ := h.serves₂.congr rfl rfl }
  unfold TwinSet.mutate
  dsimp only
  rw [happly]
  refine (hcopies (congrArg _ h.content.copies)).record (.same ?_)
  exact trivial

/-- What the second change of a write comes to is told by the visible copy it found. -/
theorem Published.apply_of_toggle (h : Published change g g₀) {polls : List (Poll K (Twin S))}
    (hpolls : ∀ poll ∈ polls, Undisturbing poll) {outcome : Except Fault Unit} {u : TwinSet S K}
    (htoggle : g₀.toggle polls = (outcome, u)) :
    (mutate g.gate.selector change u).1 = (OrderedSet.apply change g.visibleCopy).1 := by
  have hexposed := h.exposed_toggle hpolls
  rw [htoggle] at hexposed
  obtain ⟨-, hhidden, -⟩ := hexposed.replayed rfl
  exact (congrArg Prod.fst hhidden).symm

/-- A write to both sets with the same script returns the same and leaves them alike. -/
theorem Alike.write (hcrew : Accompanies t own' mayStay crew) (h : Alike t g₁ g₂)
    (hlast : Company.Closing t (Twin.Alike t) own last₁ last₂) (hundisturbing : Undisturbing last₁)
    (hfits : crew.FitsDuring (RoomFor mayStay) script fun polls => write change polls g₁) :
    ∃ outcome g₁' g₂',
      TwinSet.write change (crew.turns script ++ [last₁]) g₁ = (outcome, g₁') ∧
      TwinSet.write change (crew.turns script ++ [last₂]) g₂ = (outcome, g₂') ∧
      Alike t g₁' g₂' ∧
      ∀ fault, outcome = .error fault → BreaksOff change script own g₁ fault := by
  obtain ⟨hfirst, hchanged⟩ := h.mutate g₁.gate.selector.other change
  have hselector := h.selector
  by_cases heffect : (TwinSet.mutate g₁.gate.selector.other change g₁).1 = .ok true
  · have hpublished₁ := published_of_effective heffect
    rw [hfirst, hselector] at heffect
    have hpublished₂ := published_of_effective heffect
    rw [← hselector] at hpublished₂
    obtain ⟨outcome, u₁, u₂, htoggle₁, htoggle₂, halike, hreason⟩ :=
      hcrew.matched.toggle hlast (hchanged.publish _) (fitsDuring_toggle hfits hpublished₁)
    cases outcome with
    | error fault =>
      refine ⟨.error fault, u₁, u₂, hpublished₁.write_of_error htoggle₁,
        hpublished₂.write_of_error htoggle₂, halike, ?_⟩
      rintro _ ⟨⟩
      exact .pause (hreason fault rfl)
    | ok _ =>
      obtain ⟨hsecond, hreplayed⟩ := Alike.mutate halike g₁.gate.selector change
      refine ⟨_, _, _, hpublished₁.write_of_ok htoggle₁, ?_, hreplayed, fun fault hfault => ?_⟩
      · rw [hpublished₂.write_of_ok htoggle₂, ← hselector, hsecond]
      · have hpolls : ∀ poll ∈ crew.turns script ++ [last₁], Undisturbing poll := by
          intro poll hpoll
          rcases List.mem_append.mp hpoll with hpoll | hpoll
          · obtain ⟨moves, -, rfl⟩ := List.mem_map.mp hpoll
            exact hcrew.undisturbing moves []
          · exact List.mem_singleton.mp hpoll ▸ hundisturbing
        have happlied := hpublished₁.apply_of_toggle hpolls htoggle₁
        rw [happlied] at hfault
        rcases hvisible : OrderedSet.apply change g₁.visibleCopy with ⟨fault' | _ | _, c⟩ <;>
          rw [hvisible] at hfault
        · cases hfault
          exact .copy hvisible
        · cases hfault
          exact .diverged (Prod.ext (hfirst.trans (hselector ▸ heffect)) rfl) hvisible
        · cases hfault
  · have heffect₂ : (TwinSet.mutate g₂.gate.selector.other change g₂).1 ≠ .ok true := by
      rwa [← hselector, ← hfirst]
    refine ⟨_, _, _, write_of_ineffective heffect _, ?_, hchanged, fun fault hfault => ?_⟩
    · rw [write_of_ineffective heffect₂, ← hselector]
      exact Prod.ext hfirst.symm rfl
    · exact .copy (Prod.ext hfault rfl)

end Writes

end TwinSet

end LeftRight
