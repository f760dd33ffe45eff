import LeftRight.Proofs.Convergence
import LeftRight.Proofs.Exclusion
import Mathlib.Data.List.Induction

/-!
# Stranded readers

A writer whose wait strategy breaks off in a drain leaves readers in the hidden copy for whom
nobody waits any more. The next write makes its first change there all the same. Whom it finds
there are exactly those who have been stranded by the last write that was given up, as long as
nothing has been published since; the second change of a write is never observed.
-/

namespace LeftRight

/-- Whether the writer makes its first change, or has yet to. -/
def WriterPhase.Rests {K : Type} : WriterPhase K → Prop
  | idle | begun _ | changing _ _ | publishing _ _ => True
  | _ => False

namespace System

variable {S K : Type}

/-- What happens at one time: a step of a thread, or the end of a write by its wait strategy. -/
inductive Turn (K : Type) where
  /-- A thread takes a step. -/
  | step (action : Action K)
  /-- The wait strategy breaks off in a drain. -/
  | unwind
  deriving DecidableEq, Repr

/-- A write that is given up in a drain. What it has done until then stays done, and others may
write. -/
def unwind (s : System S K) : Option (System S K) :=
  match s.writer with
  | .draining .. => some { s with writer := .idle }
  | _ => none

theorem unwind_eq_some {s t : System S K} (h : s.unwind = some t) :
    t = { s with writer := .idle } := by
  unfold unwind at h
  split at h
  · exact (Option.some.inj h).symm
  · cases h

/-- A writer that rests awaits nobody. -/
theorem not_awaits_of_rests {s : System S K} (h : s.writer.Rests) (slot : Nat) (v : Version) :
    ¬ s.writer.Awaits slot v := by
  cases hw : s.writer <;> simp_all [WriterPhase.Rests, WriterPhase.Awaits]

variable [OrderedSet S K]

/-- A turn, if it can be taken. -/
def turn (s : System S K) : Turn K → Option (System S K)
  | .step action => s.step action
  | .unwind => s.unwind

/-- Some turns one after another, if each can be taken. -/
def play (turns : List (Turn K)) (s : System S K) : Option (System S K) := turns.foldlM turn s

/-- A property of each state that comes up in turns, the first and the last included. -/
def Always (P : System S K → Prop) (turns : List (Turn K)) (s : System S K) : Prop :=
  ∀ before, before <+: turns → ∀ t, s.play before = some t → P t

/-- A write was given up while a reader looked at the copy that it had hidden, and ever since the
reader has looked there and that copy has been hidden. -/
def Stranded (start : System S K) (turns : List (Turn K)) (thread slot : Nat) (v : Version)
    (side : Side) (since : Nat) : Prop :=
  ∃ before after, turns = before ++ .unwind :: after ∧
    ∀ middle, middle <+: after → ∀ t, start.play (before ++ .unwind :: middle) = some t →
      t.readers thread = .looking slot v side since ∧ side ≠ t.gate.selector

/-- The readers of the hidden copy are awaited, or they have been stranded while the writer does not
wait for anybody. -/
structure Sheltered (start : System S K) (turns : List (Turn K)) (s : System S K) : Prop where
  /-- The selector is as the writer left it. -/
  agrees : s.writer.Agrees s.gate.selector
  /-- Who looks at the hidden copy is awaited by the writer or stranded. -/
  awaits : ∀ thread slot v side since, s.readers thread = .looking slot v side since →
    side ≠ s.gate.selector → s.writer.Awaits slot v ∨
      s.writer.Rests ∧ start.Stranded turns thread slot v side since

variable {start s t : System S K} {turns : List (Turn K)} {a : Action K}

theorem play_concat (turns : List (Turn K)) (x : Turn K) (s : System S K) :
    s.play (turns ++ [x]) = (s.play turns).bind fun t => t.turn x := by
  rw [play, List.foldlM_append]
  cases h : turns.foldlM turn s <;> simp [play, h]

/-- The last of some turns is taken after the others. -/
theorem play_concat_eq_some {x : Turn K} :
    s.play (turns ++ [x]) = some t ↔ ∃ u, s.play turns = some u ∧ u.turn x = some t := by
  rw [play_concat, Option.bind_eq_some_iff]

/-- A reader that is stranded stays so, as long as it looks at the hidden copy. -/
theorem Stranded.concat {thread slot since : Nat} {v : Version} {side : Side} {x : Turn K}
    (h : start.Stranded turns thread slot v side since)
    (hplay : start.play (turns ++ [x]) = some t)
    (hlooks : t.readers thread = .looking slot v side since) (hhidden : side ≠ t.gate.selector) :
    start.Stranded (turns ++ [x]) thread slot v side since := by
  obtain ⟨before, after, rfl, hafter⟩ := h
  refine ⟨before, after ++ [x], by simp, fun middle hmiddle u hu => ?_⟩
  rcases List.prefix_concat_iff.mp hmiddle with rfl | hmiddle
  · rw [← List.cons_append, ← List.append_assoc, hplay] at hu
    cases hu
    exact ⟨hlooks, hhidden⟩
  · exact hafter middle hmiddle u hu

/-- Who looks at the hidden copy when a write is given up is stranded. -/
theorem stranded_unwind {thread slot since : Nat} {v : Version} {side : Side}
    (hplay : start.play (turns ++ [.unwind]) = some t)
    (hlooks : t.readers thread = .looking slot v side since) (hhidden : side ≠ t.gate.selector) :
    start.Stranded (turns ++ [.unwind]) thread slot v side since := by
  refine ⟨turns, [], rfl, fun middle hmiddle u hu => ?_⟩
  rw [List.prefix_nil.mp hmiddle, hplay] at hu
  cases hu
  exact ⟨hlooks, hhidden⟩

theorem Guarded.sheltered (h : s.Guarded) (start : System S K) (turns : List (Turn K)) :
    start.Sheltered turns s :=
  ⟨h.agrees, fun thread slot v side since hlooks hhidden =>
    .inl (h.awaits thread slot v side since hlooks hhidden)⟩

/-- While the writer waits for readers or makes its second change, nobody is stranded. -/
theorem Sheltered.guarded (h : start.Sheltered turns s) (hbusy : ¬ s.writer.Rests) : s.Guarded :=
  ⟨h.agrees, fun thread slot v side since hlooks hhidden =>
    (h.awaits thread slot v side since hlooks hhidden).resolve_right fun hrests =>
      hbusy hrests.1⟩

/-- A turn that keeps the writer at rest, the selector, and those who look at the hidden copy,
keeps the readers sheltered. -/
theorem Sheltered.rest (h : start.Sheltered turns s) (hrests : s.writer.Rests) {x : Turn K}
    (hplay : start.play (turns ++ [x]) = some t) (hrests' : t.writer.Rests)
    (hselector : t.gate.selector = s.gate.selector) (hagrees : t.writer.Agrees s.gate.selector)
    (hlookers : ∀ thread slot v side since, t.readers thread = .looking slot v side since →
      side ≠ s.gate.selector → s.readers thread = .looking slot v side since) :
    start.Sheltered (turns ++ [x]) t := by
  refine ⟨hselector ▸ hagrees, fun thread slot v side since hlooks hhidden => .inr ⟨hrests', ?_⟩⟩
  have hhidden' : side ≠ s.gate.selector := hselector ▸ hhidden
  have hlooked := hlookers thread slot v side since hlooks hhidden'
  have hstranded := (h.awaits thread slot v side since hlooked hhidden').resolve_left
    (not_awaits_of_rests hrests slot v)
  exact hstranded.2.concat hplay hlooks hhidden

/-- Each step keeps the readers sheltered, while no counter is crowded. -/
theorem Sheltered.of_moves (h : start.Sheltered turns s) (htally : s.Tallied)
    (hroom : s.Uncrowded) (hm : s.Moves a t)
    (hplay : start.play (turns ++ [.step a]) = some t) :
    start.Sheltered (turns ++ [.step a]) t := by
  by_cases hrests : s.writer.Rests
  · have hagrees := h.agrees
    -- A reader that comes to a phase does not come to look at the hidden copy.
    have hlookers (thread : Nat) (phase : ReaderPhase)
        (hphase : ∀ slot v side since, phase = .looking slot v side since →
          side = s.gate.selector) :
        ∀ other slot v side since,
          (s.setReader thread phase).readers other = .looking slot v side since →
          side ≠ s.gate.selector → s.readers other = .looking slot v side since := by
      intro other slot v side since hlooks hhidden
      by_cases ho : other = thread
      · subst ho
        rw [setReader_same] at hlooks
        exact absurd (hphase slot v side since hlooks) hhidden
      · rwa [setReader_of_ne ho] at hlooks
    cases hm with
    | @announce thread => exact h.rest hrests hplay hrests rfl hagrees (hlookers thread _ (by simp))
    | @count thread => exact h.rest hrests hplay hrests rfl hagrees (hlookers thread _ (by simp))
    | @select thread =>
      refine h.rest hrests hplay hrests rfl hagrees (hlookers thread _ ?_)
      rintro _ _ _ _ ⟨⟩
      rfl
    | look => exact h.rest hrests hplay hrests rfl hagrees fun _ _ _ _ _ hlooks _ => hlooks
    | @depart thread => exact h.rest hrests hplay hrests rfl hagrees (hlookers thread _ (by simp))
    | start idle =>
      exact h.rest hrests hplay trivial rfl trivial fun _ _ _ _ _ hlooks _ => hlooks
    | begin begun => exact h.rest hrests hplay trivial rfl rfl fun _ _ _ _ _ hlooks _ => hlooks
    | effect changing =>
      rw [changing] at hagrees
      exact h.rest hrests hplay trivial rfl hagrees fun _ _ _ _ _ hlooks _ => hlooks
    | refuse changing =>
      exact h.rest hrests hplay trivial rfl trivial fun _ _ _ _ _ hlooks _ => hlooks
    | publish =>
      -- Whoever looks at the copy that is hidden now will be awaited.
      refine Guarded.sheltered ?_ _ _
      exact ⟨rfl, fun _ _ _ _ _ _ _ => trivial⟩
    | toggle busy | rescan busy | pass busy | emptied busy | switch busy | drained busy
    | replay busy => simp [busy, WriterPhase.Rests] at hrests
  · exact ((h.guarded hrests).of_moves htally hroom hm).sheltered _ _

/-- A write that is given up strands those who look at the hidden copy. -/
theorem sheltered_unwind (hunwind : s.unwind = some t)
    (hplay : start.play (turns ++ [.unwind]) = some t) :
    start.Sheltered (turns ++ [.unwind]) t := by
  obtain rfl := unwind_eq_some hunwind
  exact ⟨trivial, fun thread slot v side since hlooks hhidden =>
    .inr ⟨trivial, stranded_unwind hplay hlooks hhidden⟩⟩

section Play

variable {slots : Nat} {slowDrain : Option Duration} {g : TwinSet S K}

/-- After turns on a new gate the tally is right, and no more readers are on any counter than there
have been turns. -/
theorem tallied_of_play (hgate : Gate.create slots slowDrain = .ok g.gate)
    (hplay : (ofSet g).play turns = some s) :
    s.Tallied ∧ ∀ slot v, (s.counted slot v).ncard ≤ turns.length := by
  induction turns using List.reverseRecOn generalizing s with
  | nil =>
    cases Option.some.inj hplay
    refine ⟨tallied_ofSet hgate, fun slot v => ?_⟩
    rw [counted_ofSet, Set.ncard_empty]
    exact Nat.zero_le _
  | append_singleton turns x ih =>
    obtain ⟨u, hu, hx⟩ := play_concat_eq_some.mp hplay
    obtain ⟨htally, hcount⟩ := ih hu
    rw [List.length_append, List.length_singleton]
    cases x with
    | step a =>
      have hm := moves_of_step hx
      refine ⟨htally.of_moves hm, fun slot v => ?_⟩
      obtain ⟨thread, hsubset⟩ := hm.counted_subset slot v
      calc (s.counted slot v).ncard
          ≤ (insert thread (u.counted slot v)).ncard :=
            Set.ncard_le_ncard hsubset ((htally.finite slot v).insert thread)
        _ ≤ (u.counted slot v).ncard + 1 := Set.ncard_insert_le thread _
        _ ≤ turns.length + 1 := Nat.add_le_add_right (hcount slot v) 1
    | unwind =>
      obtain rfl := unwind_eq_some hx
      exact ⟨htally.congr rfl (fun _ _ => rfl) rfl, fun slot v => (hcount slot v).trans (by omega)⟩

/-- Turns on a new gate are too few to crowd a counter, if they are fewer than there are words. -/
theorem always_uncrowded (hgate : Gate.create slots slowDrain = .ok g.gate)
    (hlength : turns.length < UInt64.size) : (ofSet g).Always Uncrowded turns := by
  intro before hbefore t ht slot v
  have hcount := (tallied_of_play hgate ht).2 slot v
  have hle := hbefore.length_le
  omega

/-- After turns on a new gate that never crowd a counter, the readers are sheltered. -/
theorem sheltered_of_play (hgate : Gate.create slots slowDrain = .ok g.gate)
    (hroom : (ofSet g).Always Uncrowded turns) (hplay : (ofSet g).play turns = some s) :
    (ofSet g).Sheltered turns s := by
  induction turns using List.reverseRecOn generalizing s with
  | nil =>
    cases Option.some.inj hplay
    exact (guarded_ofSet g).sheltered _ _
  | append_singleton turns x ih =>
    obtain ⟨u, hu, hx⟩ := play_concat_eq_some.mp hplay
    have hearlier : (ofSet g).Always Uncrowded turns := fun before hbefore =>
      hroom before (hbefore.trans (List.prefix_append turns [x]))
    cases x with
    | step a =>
      exact (ih hearlier hu).of_moves (tallied_of_play hgate hu).1
        (hearlier turns List.prefix_rfl u hu) (moves_of_step hx) hplay
    | unwind => exact sheltered_unwind hx hplay

/-- However the steps of readers and of writes are interleaved, and whichever writes are given up in
a drain, a writer changes a copy at which a reader looks if and only if it makes its first change
and the reader has been stranded by a write that was given up. -/
theorem changing_copy_observed_iff (hgate : Gate.create slots slowDrain = .ok g.gate)
    (hroom : (ofSet g).Always Uncrowded turns) (hplay : (ofSet g).play turns = some s)
    {thread slot since : Nat} {v : Version} {side : Side}
    (hlooks : s.readers thread = .looking slot v side since) :
    s.writer.target? = some side ↔
      (∃ change visible, s.writer = .changing change visible) ∧
        (ofSet g).Stranded turns thread slot v side since := by
  have hsheltered := sheltered_of_play hgate hroom hplay
  constructor
  · intro htarget
    have hhidden : side ≠ s.gate.selector := by
      rw [hsheltered.agrees.target_eq htarget]
      exact Side.other_ne _
    obtain ⟨hrests, hstranded⟩ := (hsheltered.awaits thread slot v side since hlooks
      hhidden).resolve_left (not_awaits_of_target htarget slot v)
    refine ⟨?_, hstranded⟩
    cases hw : s.writer <;> simp_all [WriterPhase.Rests, WriterPhase.target?]
  · rintro ⟨⟨change, visible, hchanging⟩, before, after, rfl, hafter⟩
    obtain ⟨-, hhidden⟩ := hafter after List.prefix_rfl s hplay
    have hagrees := hsheltered.agrees
    rw [hchanging] at hagrees ⊢
    have hside : side = visible.other := Side.eq_other_of_ne (hagrees ▸ hhidden)
    rw [hside]
    rfl

end Play

/-- A reader looks at the old copy while a number is added. The writer switches versions and gives
up, and the next one begins. -/
def abandonedReader : List (Turn Nat) := [
  .step (.announce 1 0), .step (.count 1), .step (.select 1),
  .step (.start (.add 1)), .step .advance, .step .advance, .step .advance, .step .advance,
  .step .advance, .step .advance, .step .advance, .unwind,
  .step (.start (.add 2)), .step .advance]

/-- The copy at which the reader looks is about to be changed. -/
theorem changing_copy_observed_abandoned : ∃ s,
    Gate.create 1 none = .ok narrowSet.gate ∧
    (ofSet narrowSet).Always Uncrowded abandonedReader ∧
    (ofSet narrowSet).play abandonedReader = some s ∧
    s.readers 1 = .looking 0 .zero .left 0 ∧
    s.writer.target? = some .left ∧
    (ofSet narrowSet).Stranded abandonedReader 1 0 .zero .left 0 :=
  have hgate : Gate.create 1 none = .ok narrowSet.gate := rfl
  have hroom : (ofSet narrowSet).Always Uncrowded abandonedReader :=
    always_uncrowded hgate (by decide)
  ⟨_, hgate, hroom, rfl, rfl, rfl, ((changing_copy_observed_iff hgate hroom rfl rfl).mp rfl).2⟩

end System

namespace TwinSet

/-- A pause in which the wait strategy breaks off. -/
def giveUp : Poll Nat (Twin (SortedList Nat)) := fun g => (.error (.raised "gave up"), g)

/-- A set in which a reader was inside while the adding of a number was given up. -/
def abandonedSet : TwinSet (SortedList Nat) Nat :=
  (write (.add 1) [giveUp] (enter 1 SetSession.narrowSession.set).2).2

/-- The reader is inside the left copy still when the next write adds its number there. -/
theorem abandonedSet_reader_overwritten :
    abandonedSet.content.inside = [⟨1, 0, .zero, .left⟩] ∧
    abandonedSet.gate.selector.other = .left ∧
    OrderedSet.toList (K := Nat) abandonedSet.content.copies.left = [] ∧
    (write (.add 2) [giveUp] abandonedSet).2.content.inside = [⟨1, 0, .zero, .left⟩] ∧
    OrderedSet.toList (K := Nat) (write (.add 2) [giveUp] abandonedSet).2.content.copies.left =
      [2] := by
  decide +kernel

end TwinSet

end LeftRight
