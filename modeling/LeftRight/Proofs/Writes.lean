import LeftRight.TwinSet.Basic

/-!
# How writes proceed

A write changes the hidden copy, and if that had an effect it publishes that copy, waits for the
readers of the other one, and changes that one too. What there is to know of a write is told by how
it proceeds: its first change has no effect, or a wait breaks off, or it is made to both copies.
-/

namespace LeftRight.TwinSet

variable {S K : Type} [OrderedSet S K] {change : Change K} {polls : List (Poll K (Twin S))}
  {g g₀ g₂ : TwinSet S K}

/-- What a write returns when the second change has come to this. -/
def afterReplay : Except Fault Bool → Except Fault Bool
  | .ok false => .error .diverged
  | second => second

/-- A write that has published its change returns only if it was made again with effect. -/
theorem eq_true_of_afterReplay {second : Except Fault Bool} {hadEffect : Bool}
    (h : afterReplay second = .ok hadEffect) : hadEffect = true := by
  rcases second with fault | _ | _ <;> cases h
  rfl

/-- The set in which a write begins to wait: the hidden copy was changed with effect, and
published. -/
def Published (change : Change K) (g g₀ : TwinSet S K) : Prop :=
  ∃ g₁, mutate g.gate.selector.other change g = (.ok true, g₁) ∧
    g₀ = g₁.publish g.gate.selector.other

/-- A first change that has an effect is published. -/
theorem published_of_effective (h : (mutate g.gate.selector.other change g).1 = .ok true) :
    Published change g
      ((mutate g.gate.selector.other change g).2.publish g.gate.selector.other) :=
  ⟨_, Prod.ext h rfl, rfl⟩

theorem Published.selector_eq (h : Published change g g₀) :
    g₀.gate.selector = g.gate.selector.other := by
  obtain ⟨g₁, -, rfl⟩ := h
  rfl

theorem Published.mutate_fst (h : Published change g g₀) :
    (mutate g.gate.selector.other change g).1 = .ok true := by
  obtain ⟨g₁, hmutate, -⟩ := h
  rw [hmutate]

/-- A write whose wait returns makes its second change, and tells what that one tells. -/
theorem Published.write_of_ok (h : Published change g g₀) (hwait : g₀.toggle polls = (.ok (), g₂)) :
    write change polls g = (afterReplay (mutate g.gate.selector change g₂).1,
      (mutate g.gate.selector change g₂).2) := by
  obtain ⟨g₁, hmutate, rfl⟩ := h
  simp only [write, hmutate, hwait]
  rcases mutate g.gate.selector change g₂ with ⟨fault | _ | _, g₃⟩ <;> rfl

/-- A write whose wait breaks off does so too. -/
theorem Published.write_of_error (h : Published change g g₀) {fault : Fault}
    (hwait : g₀.toggle polls = (.error fault, g₂)) : write change polls g = (.error fault, g₂) := by
  obtain ⟨g₁, hmutate, rfl⟩ := h
  simp only [write, hmutate, hwait]

/-- A write whose first change has no effect does not wait. -/
theorem write_of_ineffective (h : (mutate g.gate.selector.other change g).1 ≠ .ok true)
    (polls : List (Poll K (Twin S))) :
    write change polls g = mutate g.gate.selector.other change g := by
  dsimp only [write]
  rcases hmutate : mutate g.gate.selector.other change g with ⟨fault | _ | _, g₁⟩
  · rfl
  · rfl
  · rw [hmutate] at h
    exact absurd rfl h

/-- How a write can proceed, and what it comes to. -/
inductive Proceeds (change : Change K) (polls : List (Poll K (Twin S))) (g : TwinSet S K) :
    Except Fault Bool × TwinSet S K → Prop
  /-- The first change has no effect, and nothing else is done. -/
  | ineffective (ineffective : (mutate g.gate.selector.other change g).1 ≠ .ok true) :
      Proceeds change polls g (mutate g.gate.selector.other change g)
  /-- The first change is published, and a wait breaks off. -/
  | interrupted {g₀ g₂ : TwinSet S K} {fault : Fault} (published : Published change g g₀)
      (broken : g₀.toggle polls = (.error fault, g₂)) : Proceeds change polls g (.error fault, g₂)
  /-- The first change is published, both waits end, and the change is made again. -/
  | replayed {g₀ g₂ : TwinSet S K} (published : Published change g g₀)
      (waited : g₀.toggle polls = (.ok (), g₂)) :
      Proceeds change polls g (afterReplay (mutate g.gate.selector change g₂).1,
        (mutate g.gate.selector change g₂).2)

/-- So every write proceeds. -/
theorem proceeds_write (change : Change K) (polls : List (Poll K (Twin S))) (g : TwinSet S K) :
    Proceeds change polls g (write change polls g) := by
  by_cases heffect : (mutate g.gate.selector.other change g).1 = .ok true
  · have hpublished := published_of_effective heffect
    generalize (mutate g.gate.selector.other change g).2.publish g.gate.selector.other = g₀
      at hpublished
    rcases hwait : g₀.toggle polls with ⟨fault | _, g₂⟩
    · rw [hpublished.write_of_error hwait]
      exact .interrupted hpublished hwait
    · rw [hpublished.write_of_ok hwait]
      exact .replayed hpublished hwait
  · rw [write_of_ineffective heffect]
    exact .ineffective heffect

end LeftRight.TwinSet
