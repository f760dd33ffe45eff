import LeftRight.Proofs.Attendance
import LeftRight.Proofs.Steps

/-!
# Systems that are sets for the moment

In an interleaving each reader takes single steps. When none of them is in the middle of entering,
the system is a twin set with these readers inside, whatever its writer does. What a reader of the
set does at one time, it does in the system by a few steps between which nobody else takes one: who
enters is announced, counted and told its side, and who leaves departs.
-/

namespace LeftRight

/-- Whether a step is one of a reader. -/
def Action.IsReaders {K : Type} : Action K → Prop
  | .announce .. | .count _ | .select _ | .look _ | .depart _ => True
  | .start _ | .advance => False

/-- Of two lists that are related place by place, a member of the second one can be taken out with
its partner. -/
theorem exists_partner {α β : Type} [DecidableEq α] [DecidableEq β] {R : α → β → Prop}
    {as : List α} {bs : List β} (h : List.Forall₂ R as bs) (hnodup : as.Nodup) {b : β}
    (hb : b ∈ bs) : ∃ a ∈ as, R a b ∧ List.Forall₂ R (as.erase a) (bs.erase b) := by
  induction h with
  | nil => cases hb
  | @cons a b' as bs hrelated hrest ih =>
    obtain ⟨hfresh, hnodup⟩ := List.nodup_cons.mp hnodup
    by_cases hhead : b' = b
    · subst hhead
      refine ⟨a, List.mem_cons_self, hrelated, ?_⟩
      rwa [List.erase_cons_head, List.erase_cons_head]
    · have hmem : b ∈ bs := (List.mem_cons.mp hb).resolve_left (Ne.symm hhead)
      obtain ⟨a', ha', hpartner, hleft⟩ := ih hnodup hmem
      have hne : a ≠ a' := fun heq => hfresh (heq ▸ ha')
      refine ⟨a', List.mem_cons_of_mem _ ha', hpartner, ?_⟩
      rw [List.erase_cons_tail (by simpa using hne), List.erase_cons_tail (by simpa using hhead)]
      exact .cons hrelated hleft

/-- Whether a reader is found on its counter or not, it is counted no longer when it departs. -/
theorem Indicator.depart_snd_eq (slot : Nat) (v : Version) (i : Indicator) :
    (i.depart slot v).2 = i.adjust slot v (· - 1) := by
  by_cases hslot : slot < i.size
  · exact depart_snd hslot v
  · have hnone : i.slots.modify slot (·.adjust v (· - 1)) = i.slots :=
      List.modify_eq_self (Nat.le_of_not_lt hslot)
    obtain ⟨current, slots, hslots⟩ := i
    simp only [depart, if_neg hslot, adjust, hnone]

namespace TwinSet

variable {S K : Type} {g g' : TwinSet S K}

/-- What becomes of the set that a reader enters. -/
theorem enter_eq_ok {thread : Nat} {reader : Reader} (h : enter thread g = (.ok reader, g')) :
    reader.slot < g.gate.indicator.size ∧ reader.version = g.gate.indicator.current ∧
      reader.side = g.gate.selector ∧
      g'.gate = { g.gate with
        indicator := g.gate.indicator.adjust reader.slot reader.version (· + 1) } ∧
      g'.content.copies = g.content.copies ∧ g'.content.inside = reader :: g.content.inside := by
  dsimp only [enter, Gated.record_gate] at h
  split at h
  · cases h
  · rename_i slot _
    by_cases hslot : slot < g.gate.indicator.size
    · simp only [Indicator.arrive, if_pos hslot, Prod.mk.injEq, Except.ok.injEq] at h
      obtain ⟨rfl, rfl⟩ := h
      exact ⟨hslot, rfl, rfl, rfl, rfl, rfl⟩
    · simp only [Indicator.arrive, if_neg hslot] at h
      cases h

end TwinSet

namespace System

variable {S K : Type}

/-- Whether a reader of a set looks at its copy in a system, under this name. -/
def LooksAs (s : System S K) (name : Nat) (reader : Reader) : Prop :=
  ∃ since, s.readers name = .looking reader.slot reader.version reader.side since

/-- Whether a system is a set for the moment. Whoever is inside the set looks at its copy in the
system, under the name that is listed in its place, and nobody else reads. The writer is in this
phase, and these changes have been published. -/
structure Shows (names : List Nat) (phase : WriterPhase K) (changes : List (Change K))
    (s : System S K) (g : TwinSet S K) : Prop where
  gate : s.gate = g.gate
  copies : s.copies = g.content.copies
  looking : List.Forall₂ s.LooksAs names g.content.inside
  nodup : names.Nodup
  outside : ∀ name, name ∉ names → s.readers name = .outside
  writer : s.writer = phase
  published : s.published = changes

/-- Where nobody is inside, a set at rest is its own system. -/
theorem shows_ofSet {g : TwinSet S K} (hinside : g.content.inside = []) :
    Shows [] .idle [] (ofSet g) g where
  gate := rfl
  copies := rfl
  looking := by
    rw [hinside]
    exact .nil
  nodup := .nil
  outside _ _ := rfl
  writer := rfl
  published := rfl

variable {names : List Nat} {phase : WriterPhase K} {changes : List (Change K)}
  {s s' : System S K} {g g' : TwinSet S K}

/-- The wait strategy and the trace of a set are not in its system. -/
theorem Shows.congr (h : Shows names phase changes s g) (hgate : g'.gate = g.gate)
    (hcontent : g'.content = g.content) : Shows names phase changes s g' where
  gate := h.gate.trans hgate.symm
  copies := by rw [hcontent, h.copies]
  looking := by
    rw [hcontent]
    exact h.looking
  nodup := h.nodup
  outside := h.outside
  writer := h.writer
  published := h.published

/-- The writer may come to another phase. -/
theorem Shows.setWriter (h : Shows names phase changes s g) (phase' : WriterPhase K) :
    Shows names phase' changes { s with writer := phase' } g :=
  { h with writer := rfl }

/-- Who does not take a step looks on. -/
theorem looking_congr {inside : List Reader} (h : List.Forall₂ s.LooksAs names inside)
    (hsame : ∀ name ∈ names, s'.readers name = s.readers name) :
    List.Forall₂ s'.LooksAs names inside := by
  refine ((List.forall₂_and_left ..).mpr ⟨hsame, h⟩).imp ?_
  rintro name reader ⟨hkept, since, hlooks⟩
  exact ⟨since, hkept.trans hlooks⟩

/-- Who is not let in takes no step. -/
theorem Shows.enter_of_error (h : Shows names phase changes s g) {thread : Nat} {fault : Fault}
    (hentered : TwinSet.enter thread g = (.error fault, g')) : Shows names phase changes s g' := by
  have hundisturbed := TwinSet.undisturbed_enter thread g
  rcases TwinSet.enter_spec thread g with
    ⟨_, _, houtcome, hgate, hinside⟩ | ⟨_, _, houtcome, -⟩ <;>
    rw [hentered] at houtcome hundisturbed
  · cases houtcome
    refine { h with gate := h.gate.trans hgate.symm, copies := ?_, looking := ?_ }
    · exact h.copies.trans hundisturbed.copies.symm
    · rw [hinside]
      exact h.looking
  · cases houtcome

section Readers

variable [OrderedSet S K]

/-- A reader that enters is announced, counted and told its side. -/
theorem Shows.enter (h : Shows names phase changes s g) {name : Nat} (hname : name ∉ names)
    {thread : Nat} {reader : Reader} (hentered : TwinSet.enter thread g = (.ok reader, g')) :
    ∃ s', s.run [.announce name reader.slot, .count name, .select name] = some s' ∧
      Shows (name :: names) phase changes s' g' := by
  obtain ⟨hslot, hversion, hside, hgate, hcopies, hinside⟩ := TwinSet.enter_eq_ok hentered
  rw [← h.gate] at hslot hversion hside
  let s₁ := s.setReader name (.announced reader.slot reader.version)
  let s₂ := (s₁.adjust reader.slot reader.version (· + 1)).setReader name
    (.counted reader.slot reader.version)
  let s₃ := s₂.setReader name
    (.looking reader.slot reader.version reader.side s.published.length)
  have hannounced : s.step (.announce name reader.slot) = some s₁ := by
    rw [step, if_pos ⟨h.outside name hname, hslot⟩, ← hversion]
  have hcounted : s₁.step (.count name) = some s₂ := by simp [step, s₁, s₂]
  have hselected : s₂.step (.select name) = some s₃ := by
    simp only [step, s₂, setReader_same, s₃, hside]
    rfl
  have hothers : ∀ other, other ≠ name → s₃.readers other = s.readers other := by
    intro other hne
    simp [s₃, s₂, s₁, adjust, setReader_of_ne hne]
  refine ⟨s₃, ?_, ?_⟩
  · rw [run_cons, hannounced, Option.bind_some, run_cons, hcounted, Option.bind_some, run_cons,
      hselected]
    rfl
  · constructor
    · rw [hgate, ← h.gate]
      rfl
    · exact h.copies.trans hcopies.symm
    · rw [hinside]
      refine .cons ⟨s.published.length, setReader_same ..⟩ (looking_congr h.looking ?_)
      exact fun other hother => hothers other fun heq => hname (heq ▸ hother)
    · exact List.nodup_cons.mpr ⟨hname, h.nodup⟩
    · intro other hother
      rw [List.mem_cons, not_or] at hother
      exact (hothers other hother.1).trans (h.outside other hother.2)
    · exact h.writer
    · exact h.published

/-- A reader that leaves departs. -/
theorem Shows.depart (h : Shows names phase changes s g) {name : Nat} {reader : Reader}
    (hlooks : s.LooksAs name reader)
    (hrest : List.Forall₂ s.LooksAs (names.erase name) (g.content.inside.erase reader)) :
    ∃ s', s.run [.depart name] = some s' ∧
      Shows (names.erase name) phase changes s' (TwinSet.leave reader g).2 := by
  obtain ⟨since, hlooks⟩ := hlooks
  have hothers : ∀ other, other ≠ name →
      ((s.adjust reader.slot reader.version (· - 1)).setReader name .outside).readers other =
        s.readers other := fun other hne => setReader_of_ne hne ..
  refine ⟨_, by rw [run_cons, step, hlooks]; rfl, ?_⟩
  constructor
  · rw [setReader, adjust, TwinSet.leave, ← Indicator.depart_snd_eq, h.gate]
  · exact h.copies
  · exact looking_congr hrest fun other hother => hothers other (h.nodup.mem_erase_iff.mp hother).1
  · exact h.nodup.erase name
  · intro other hother
    by_cases hsame : other = name
    · subst hsame
      exact setReader_same ..
    · rw [hothers other hsame]
      exact h.outside other fun hmem => hother (h.nodup.mem_erase_iff.mpr ⟨hsame, hmem⟩)
  · exact h.writer
  · exact h.published

/-- Whoever is inside looks on under some name, and departs when it leaves. -/
theorem Shows.leave (h : Shows names phase changes s g) {reader : Reader}
    (hinside : reader ∈ g.content.inside) : ∃ name ∈ names, s.LooksAs name reader ∧
      ∃ s', s.run [.depart name] = some s' ∧
        Shows (names.erase name) phase changes s' (TwinSet.leave reader g).2 := by
  obtain ⟨name, hname, hlooks, hrest⟩ := exists_partner h.looking h.nodup hinside
  exact ⟨name, hname, hlooks, h.depart hlooks hrest⟩

/-- A reader that is let in sees the visible copy, and departs after its look. -/
theorem Shows.read (h : Shows names phase changes s g) {name : Nat} (hname : name ∉ names)
    {thread : Nat} {reader : Reader} (hentered : TwinSet.enter thread g = (.ok reader, g'))
    {α : Type} (look : Side → S → List (Event K) × Except Fault α) :
    ∃ s₁ s', s.run [.announce name reader.slot, .count name, .select name] = some s₁ ∧
      s₁.sight name = some g.visibleCopy ∧ s₁.run [.look name, .depart name] = some s' ∧
      Shows names phase changes s' (TwinSet.read thread look g).2 := by
  obtain ⟨-, -, hside, -, hcopies, hinside⟩ := TwinSet.enter_eq_ok hentered
  obtain ⟨s₁, hrun, h₁⟩ := h.enter hname hentered
  have hlooking := h₁.looking
  rw [hinside] at hlooking
  obtain ⟨hlooks, hrest⟩ := List.forall₂_cons.mp hlooking
  have hsight : s₁.sight name = some g.visibleCopy := by
    obtain ⟨since, hphase⟩ := hlooks
    rw [sight, hphase, TwinSet.visibleCopy, h₁.copies, hcopies, hside]
  obtain ⟨noted, hread⟩ : ∃ noted, (TwinSet.read thread look g).2 =
      (TwinSet.leave reader { g' with events := g'.events ++ noted }).2 := by
    rcases TwinSet.read_spec thread look g with
      ⟨_, _, houtcome, -⟩ | ⟨_, _, noted, houtcome, -, hread⟩ <;> rw [hentered] at houtcome <;>
      cases houtcome
    exact ⟨noted, hread⟩
  have hnoted : Shows (name :: names) phase changes s₁
      { g' with events := g'.events ++ noted } := h₁.congr rfl rfl
  obtain ⟨s', hdeparted, h'⟩ := hnoted.depart hlooks (by
    rw [hinside, List.erase_cons_head, List.erase_cons_head]
    exact hrest)
  rw [List.erase_cons_head, ← hread] at h'
  refine ⟨s₁, s', hrun, hsight, ?_, h'⟩
  rw [run_cons, step, hsight]
  exact hdeparted

end Readers

section Runs

variable [OrderedSet S K] {Allowed Allowed' : Action K → Prop} {P P' : System S K → Prop}

/-- Whether steps of these kinds lead to a system of which something holds. -/
def Reaches (Allowed : Action K → Prop) (s : System S K) (P : System S K → Prop) : Prop :=
  ∃ actions, (∀ a ∈ actions, Allowed a) ∧ ∃ s', s.run actions = some s' ∧ P s'

theorem Reaches.refl (h : P s) : Reaches Allowed s P := ⟨[], nofun, s, rfl, h⟩

theorem Reaches.trans (h : Reaches Allowed s P) (h' : ∀ s', P s' → Reaches Allowed s' P') :
    Reaches Allowed s P' := by
  obtain ⟨before, hbefore, s₁, hrun, hP⟩ := h
  obtain ⟨after, hafter, s₂, hrun', hP'⟩ := h' s₁ hP
  refine ⟨before ++ after, ?_, s₂, run_append_eq_some.mpr ⟨s₁, hrun, hrun'⟩, hP'⟩
  exact fun a ha => (List.mem_append.mp ha).elim (hbefore a) (hafter a)

theorem Reaches.mono (h : Reaches Allowed s P) (hallowed : ∀ a, Allowed a → Allowed' a)
    (hP : ∀ s', P s' → P' s') : Reaches Allowed' s P' := by
  obtain ⟨actions, hactions, s', hrun, hs'⟩ := h
  exact ⟨actions, fun a ha => hallowed a (hactions a ha), s', hrun, hP s' hs'⟩

theorem Reaches.step {a : Action K} (ha : Allowed a) (hstep : s.step a = some s') (h : P s') :
    Reaches Allowed s P := by
  refine ⟨[a], fun b hb => List.mem_singleton.mp hb ▸ ha, s', ?_, h⟩
  rw [run_cons, hstep]
  rfl

/-- A system that is this set for the moment, whatever its readers are called. -/
def IsSet (phase : WriterPhase K) (changes : List (Change K)) (g : TwinSet S K)
    (s : System S K) : Prop :=
  ∃ names, Shows names phase changes s g

/-- What readers do to a set is done by steps of readers. -/
theorem Shows.visited (h : Shows names phase changes s g) (hvisited : g.Visited g') :
    s.Reaches Action.IsReaders (IsSet phase changes g') := by
  obtain ⟨name, hname⟩ := Infinite.exists_notMem_finset names.toFinset
  rw [List.mem_toFinset] at hname
  cases hvisited with
  | enter thread =>
    rcases hentered : TwinSet.enter thread g with ⟨fault | reader, g₁⟩
    · exact .refl ⟨names, h.enter_of_error hentered⟩
    · obtain ⟨s', hrun, h'⟩ := h.enter hname hentered
      exact ⟨_, by simp [Action.IsReaders], s', hrun, _, h'⟩
  | leave inside =>
    obtain ⟨name, -, -, s', hrun, h'⟩ := h.leave inside
    exact ⟨_, by simp [Action.IsReaders], s', hrun, _, h'⟩
  | read thread look =>
    rcases hentered : TwinSet.enter thread g with ⟨fault | reader, g₁⟩
    · have hread : TwinSet.read thread look g = (.error fault, g₁) := by
        simp only [TwinSet.read, hentered]
      rw [hread]
      exact .refl ⟨names, h.enter_of_error hentered⟩
    · obtain ⟨s₁, s', hrun, -, hrun', h'⟩ := h.read hname hentered look
      exact ⟨_, by simp [Action.IsReaders], s', run_append_eq_some.mpr ⟨s₁, hrun, hrun'⟩, _, h'⟩
  | aside gate content => exact .refl ⟨names, h.congr gate content⟩

theorem IsSet.visits (h : IsSet phase changes g s) (hvisits : g.Visits g') :
    s.Reaches Action.IsReaders (IsSet phase changes g') := by
  induction hvisits with
  | refl => exact .refl h
  | tail _ hvisited ih => exact ih.trans fun s' ⟨names, h'⟩ => h'.visited hvisited

end Runs

end System

end LeftRight
