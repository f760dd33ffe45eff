import Mathlib.Data.List.Induction
import LeftRight.Proofs.Convergence

/-!
# Writes that unwind

A write that breaks off after it has published the hidden copy leaves the other copy without its
change, and the next write starts from there. So the copies hold the same keys between the writes
of a run if and only if none of its writes breaks off like this; if one does, the next effective
write takes its change from the readers again.
-/

namespace LeftRight

open OrderedSet

namespace TwinSet

variable {S K : Type} [OrderedSet S K]

/-- The keys that new readers see. -/
def visibleKeys (g : TwinSet S K) : List K := OrderedSet.toList g.visibleCopy

/-- The keys of the copy at which new readers do not look. -/
def hiddenKeys (g : TwinSet S K) : List K := OrderedSet.toList g.hiddenCopy

/-- Whether both copies hold the same keys. -/
def SameKeys (g : TwinSet S K) : Prop := g.visibleKeys = g.hiddenKeys

instance [DecidableEq K] (g : TwinSet S K) : Decidable g.SameKeys :=
  inferInstanceAs (Decidable (_ = _))

/-- Something that is done to a set: a write, with what happens at its polls, or what others do
in the meantime. The others let the copies alone, but their acts and the pauses may break off. -/
inductive Deed (S K : Type) where
  /-- A write. -/
  | write (change : Change K) (polls : List { poll : Poll K (Twin S) // Undisturbing poll })
  /-- What others do. -/
  | others (act : TwinSet S K → TwinSet S K) (undisturbed : ∀ g, Undisturbed g (act g))

namespace Deed

/-- What a write comes to. -/
def attempt (change : Change K) (polls : List { poll : Poll K (Twin S) // Undisturbing poll })
    (g : TwinSet S K) : Except Fault Bool × TwinSet S K :=
  TwinSet.write change (polls.map (·.val)) g

/-- The set after a deed. -/
def perform (g : TwinSet S K) : Deed S K → TwinSet S K
  | write change polls => (attempt change polls g).2
  | others act _ => act g

/-- Whether a deed is a write that breaks off after it has published the hidden copy. -/
def Unwinds (g : TwinSet S K) : Deed S K → Prop
  | write change polls => (∃ fault, (attempt change polls g).1 = .error fault) ∧
      (attempt change polls g).2.gate.selector ≠ g.gate.selector
  | others _ _ => False

end Deed

/-- The set after some deeds. -/
def follow (deeds : List (Deed S K)) (g : TwinSet S K) : TwinSet S K := deeds.foldl Deed.perform g

theorem follow_concat (deeds : List (Deed S K)) (deed : Deed S K) (g : TwinSet S K) :
    follow (deeds ++ [deed]) g = deed.perform (follow deeds g) := by
  rw [follow, List.foldl_append]
  rfl

theorem Undisturbed.sameKeys_iff {g g' : TwinSet S K} (h : g.Undisturbed g') :
    g'.SameKeys ↔ g.SameKeys := by
  unfold SameKeys visibleKeys hiddenKeys
  rw [h.visibleCopy, h.hiddenCopy]

theorem Deed.wrote_attempt (change : Change K)
    (polls : List { poll : Poll K (Twin S) // Undisturbing poll }) (g : TwinSet S K) :
    g.Wrote change (polls.map (·.val)) (attempt change polls g).1 (attempt change polls g).2 := by
  refine wrote_write ?_ g
  intro poll hpoll
  obtain ⟨⟨poll, hundisturbing⟩, -, rfl⟩ := List.mem_map.mp hpoll
  exact hundisturbing

variable [Keyed S]

section Wrote

variable {change : Change K} {polls : List (Poll K (Twin S))} {g g' : TwinSet S K}
  {outcome : Except Fault Bool}

/-- Readers of a publication see what the change made of the hidden keys. -/
theorem Wrote.effect_of_published (h : g.Wrote change polls outcome g')
    (hpublished : g'.gate.selector ≠ g.gate.selector) :
    Keyed.effect S change g.hiddenKeys = some g'.visibleKeys := by
  cases h with
  | refused _ _ selector => exact absurd selector hpublished
  | interrupted applied => exact Keyed.of_effective applied
  | replayed applied => exact Keyed.of_effective applied

/-- A write that breaks off after the publication leaves the keys of the other copy alone. -/
theorem Wrote.hiddenKeys_of_unwinding {fault : Fault}
    (h : g.Wrote change polls outcome g') (hfault : outcome = .error fault)
    (hpublished : g'.gate.selector ≠ g.gate.selector) : g'.hiddenKeys = g.visibleKeys := by
  cases h with
  | refused _ _ selector => exact absurd selector hpublished
  | interrupted _ _ hidden => exact congrArg OrderedSet.toList hidden
  | @replayed second _ applied replayed =>
    rcases second with fault' | _ | _
    · exact Keyed.of_error replayed
    · exact (Keyed.of_ineffective replayed).2
    · cases hfault

/-- After a write that starts from the same keys, the copies hold the same keys again unless it
breaks off after the publication. -/
theorem Wrote.sameKeys_iff (h : g.Wrote change polls outcome g') (hsame : g.SameKeys) :
    g'.SameKeys ↔ ¬ ((∃ fault, outcome = .error fault) ∧
      g'.gate.selector ≠ g.gate.selector) := by
  by_cases hunwinds : (∃ fault, outcome = .error fault) ∧ g'.gate.selector ≠ g.gate.selector
  · refine iff_of_false ?_ fun hnot => hnot hunwinds
    -- A published change can be seen, so a copy that lacks it holds other keys.
    obtain ⟨⟨fault, hfault⟩, hpublished⟩ := hunwinds
    have heffect := h.effect_of_published hpublished
    have hkept := h.hiddenKeys_of_unwinding hfault hpublished
    intro hsame'
    exact Keyed.effect_ne heffect (hsame'.trans (hkept.trans hsame))
  · refine iff_of_true ?_ hunwinds
    have hflipped (hselector : g'.gate.selector = g.gate.selector.other) :
        g'.gate.selector ≠ g.gate.selector := hselector ▸ Side.other_ne _
    cases h with
    | refused applied ineffective selector visible =>
      have hkept : g'.hiddenKeys = g.hiddenKeys := by
        rcases outcome with fault | _ | _
        · exact Keyed.of_error applied
        · exact (Keyed.of_ineffective applied).2
        · exact absurd rfl ineffective
      have hshown : g'.visibleKeys = g.visibleKeys := congrArg OrderedSet.toList visible
      exact hshown.trans (hsame.trans hkept.symm)
    | interrupted _ selector => exact absurd ⟨⟨_, rfl⟩, hflipped selector⟩ hunwinds
    | @replayed second _ applied replayed selector =>
      have heffect : Keyed.effect S change g.hiddenKeys = some g'.visibleKeys :=
        Keyed.of_effective applied
      have hstart : OrderedSet.toList g.visibleCopy = g.hiddenKeys := hsame
      rcases second with fault | _ | _
      · exact absurd ⟨⟨fault, rfl⟩, hflipped selector⟩ hunwinds
      · exact absurd ⟨⟨.diverged, rfl⟩, hflipped selector⟩ hunwinds
      · have heffect' := Keyed.of_effective replayed
        rw [hstart, heffect] at heffect'
        exact Option.some.inj heffect'

/-- The readers of a write that starts from the same keys see its effect or nothing. -/
theorem Wrote.visibleKeys (h : g.Wrote change polls outcome g') (hsame : g.SameKeys) :
    g'.visibleKeys = g.visibleKeys ∨
      Keyed.effect S change g.visibleKeys = some g'.visibleKeys := by
  by_cases hpublished : g'.gate.selector = g.gate.selector
  · cases h with
    | refused _ _ _ visible => exact .inl (congrArg OrderedSet.toList visible)
    | interrupted _ selector | replayed _ _ selector =>
      exact absurd (selector.symm.trans hpublished) (Side.other_ne _)
  · rw [hsame]
    exact .inr (h.effect_of_published hpublished)

end Wrote

/-- A deed that starts from the same keys leaves the same keys, unless it unwinds. -/
theorem Deed.sameKeys_perform_iff {g : TwinSet S K} (hsame : g.SameKeys) (deed : Deed S K) :
    (deed.perform g).SameKeys ↔ ¬ deed.Unwinds g := by
  cases deed with
  | write change polls => exact (wrote_attempt change polls g).sameKeys_iff hsame
  | others act undisturbed => exact iff_of_true ((undisturbed g).sameKeys_iff.mpr hsame) id

/-- What a deed does to the keys that new readers see: a write that has an effect does that to
them, and nothing else does anything. -/
theorem Deed.visibleKeys_perform {g : TwinSet S K} (hsame : g.SameKeys) (deed : Deed S K) :
    (deed.perform g).visibleKeys = g.visibleKeys ∨ ∃ change polls, deed = .write change polls ∧
      Keyed.effect S change g.visibleKeys = some (deed.perform g).visibleKeys := by
  cases deed with
  | write change polls =>
    rcases (wrote_attempt change polls g).visibleKeys hsame with hkept | heffect
    · exact .inl hkept
    · exact .inr ⟨change, polls, rfl, heffect⟩
  | others act undisturbed => exact .inl (congrArg OrderedSet.toList (undisturbed g).visibleCopy)

/-- A write that unwinds is forgotten by the next one that publishes: what the readers see then is
the effect of the latter on the keys from before the former. -/
theorem Deed.visibleKeys_after_unwinding {g : TwinSet S K} {first : Deed S K}
    (hunwinds : first.Unwinds g) (change : Change K)
    (polls : List { poll : Poll K (Twin S) // Undisturbing poll })
    (hpublished : (attempt change polls (first.perform g)).2.gate.selector ≠
      (first.perform g).gate.selector) :
    Keyed.effect S change g.visibleKeys =
      some (attempt change polls (first.perform g)).2.visibleKeys := by
  have hleft : (first.perform g).hiddenKeys = g.visibleKeys := by
    cases first with
    | others => exact hunwinds.elim
    | write change' polls' =>
      obtain ⟨⟨fault, hfault⟩, hflipped⟩ := hunwinds
      exact (wrote_attempt change' polls' g).hiddenKeys_of_unwinding hfault hflipped
  rw [← hleft]
  exact (wrote_attempt change polls (first.perform g)).effect_of_published hpublished

/-- Between the deeds of a run both copies hold the same keys, if they do at first, exactly if
no write of the run breaks off after it has published the hidden copy. As long as they do, the
readers see of each write its own effect, and no key comes or goes otherwise. -/
theorem sameKeys_iff_no_unwinding {g : TwinSet S K} (hsame : g.SameKeys)
    (deeds : List (Deed S K)) :
    ((∀ before, before <+: deeds → (follow before g).SameKeys) ↔
      ∀ before deed, before ++ [deed] <+: deeds → ¬ deed.Unwinds (follow before g)) ∧
    ((∀ before, before <+: deeds → (follow before g).SameKeys) →
      ∀ before deed, before ++ [deed] <+: deeds →
        (follow (before ++ [deed]) g).visibleKeys = (follow before g).visibleKeys ∨
        ∃ change polls, deed = .write change polls ∧
          Keyed.effect S change (follow before g).visibleKeys =
            some (follow (before ++ [deed]) g).visibleKeys) := by
  refine ⟨⟨?_, ?_⟩, ?_⟩
  · intro hkeys before deed hprefix
    have hbefore := hkeys before ((List.prefix_append ..).trans hprefix)
    refine (deed.sameKeys_perform_iff hbefore).mp ?_
    rw [← follow_concat]
    exact hkeys _ hprefix
  · intro hwhole before hprefix
    -- Along the run, from its start.
    induction before using List.reverseRecOn with
    | nil => exact hsame
    | append_singleton before deed ih =>
      have hbefore := ih ((List.prefix_append ..).trans hprefix)
      rw [follow_concat]
      exact (deed.sameKeys_perform_iff hbefore).mpr (hwhole before deed hprefix)
  · intro hkeys before deed hprefix
    have hbefore := hkeys before ((List.prefix_append ..).trans hprefix)
    rw [follow_concat]
    exact deed.visibleKeys_perform hbefore

/-- A reader is inside when one is added, and the only pause breaks off. Then two is added. -/
def panickedDeeds : List (Deed (SortedList Nat) Nat) := [
  .others (fun g => (enter 1 g).2) (undisturbed_enter 1),
  .write (.add 1) [⟨(company true).turn [.raise "gave up"] [], undisturbing_turn true _ _⟩],
  .write (.add 2) []]

/-- The copies are not the same after the first of the writes, which unwinds. -/
theorem sameKeys_iff_no_unwinding_panicked :
    SetSession.narrowSession.set.SameKeys ∧
    ¬ (follow (panickedDeeds.take 2) SetSession.narrowSession.set).SameKeys ∧
    ¬ ∀ before deed, before ++ [deed] <+: panickedDeeds →
      ¬ deed.Unwinds (follow before SetSession.narrowSession.set) := by
  have hsame : SetSession.narrowSession.set.SameKeys := by decide
  have happart : ¬ (follow (panickedDeeds.take 2) SetSession.narrowSession.set).SameKeys := by
    decide +kernel
  refine ⟨hsame, happart, fun hwhole => happart ?_⟩
  exact (sameKeys_iff_no_unwinding hsame panickedDeeds).1.mpr hwhole _ (List.take_prefix ..)

end TwinSet

namespace SetSession

open TwinSet

/-- The same as a session, in which the number that was added first is looked up. -/
def panickedWrites : List (SetStep Nat) := [
  .ask (.enter 1),
  .write (.add 1) [[.raise "gave up"]],
  .ask (.contains 1 0),
  .write (.add 2) [],
  .ask (.contains 1 0)]

/-- Readers see the first number, and do not see it any more when the second one is there. -/
theorem panickedWrites_lose_key :
    (narrowSession.run panickedWrites).1.map Prod.fst =
      [.keys [], .fault (.raised "gave up"), .flag true, .flag true, .flag false] ∧
    (narrowSession.run panickedWrites).2.set.visibleKeys = [2] ∧
    (narrowSession.run panickedWrites).2.set.hiddenKeys = [1, 2] := by
  decide +kernel

end SetSession

end LeftRight
