import LeftRight.OrderedSet.SortedList
import LeftRight.Proofs.Faultless
import LeftRight.Proofs.Phases

/-!
# Building sets

Whether a set can be built is decided by its configuration alone, and exactly at the limits of a
word. A configuration that is refused is refused before anything is done, and from any other one a
new set comes out whose strategy was handed the configuration once.
-/

namespace LeftRight

namespace Config

variable {detected : Option Parallelism} {c : Config} {p : Parallelism}

/-- The number of slots that a configuration asks for, whether or not it fits into a word. -/
def slotsFor (p : Parallelism) (c : Config) : Nat := p.val.toNat * c.slotsPerCore.toNat

/-- What becomes of the number of slots, in three cases. -/
theorem slotCount_cases (detected : Option Parallelism) (hint : c.parallelism = some p) :
    (c.slotsPerCore = 0 ∧ c.slotCount detected = .error .noSlots) ∨
      (c.slotsPerCore ≠ 0 ∧ UInt64.size ≤ c.slotsFor p ∧
        c.slotCount detected = .error (.tooManySlots p.val c.slotsPerCore)) ∨
      (c.slotsPerCore ≠ 0 ∧ c.slotsFor p < UInt64.size ∧
        c.slotCount detected = .ok (c.slotsFor p)) := by
  by_cases hzero : c.slotsPerCore = 0
  · exact Or.inl ⟨hzero, if_pos hzero⟩
  · by_cases hfits : c.slotsFor p < UInt64.size
    · refine Or.inr (Or.inr ⟨hzero, hfits, ?_⟩)
      rw [slotsFor] at hfits
      rw [slotCount, resolve_of_hint hint, if_neg hzero, if_pos hfits, slotsFor]
    · refine Or.inr (Or.inl ⟨hzero, Nat.not_lt.mp hfits, ?_⟩)
      rw [slotsFor] at hfits
      rw [slotCount, resolve_of_hint hint, if_neg hzero, if_neg hfits]

theorem slotCount_eq_noSlots_iff (hint : c.parallelism = some p) :
    c.slotCount detected = .error .noSlots ↔ c.slotsPerCore = 0 := by
  rcases slotCount_cases detected hint with
    ⟨hzero, h⟩ | ⟨hzero, -, h⟩ | ⟨hzero, -, h⟩ <;> simp [h, hzero]

theorem slotCount_eq_tooManySlots_iff (hint : c.parallelism = some p) {m n : UInt64} :
    c.slotCount detected = .error (.tooManySlots m n) ↔
      0 < c.slotsPerCore ∧ UInt64.size ≤ c.slotsFor p ∧ m = p.val ∧ n = c.slotsPerCore := by
  rcases slotCount_cases detected hint with
    ⟨hzero, h⟩ | ⟨hzero, hsize, h⟩ | ⟨hzero, hsize, h⟩
  · simp [h, hzero]
  · simp [h, UInt64.pos_iff_ne_zero, hzero, hsize, eq_comm]
  · simp [h, Nat.not_le.mpr hsize]

theorem slotCount_eq_ok_iff (hint : c.parallelism = some p) {n : Nat} :
    c.slotCount detected = .ok n ↔
      0 < c.slotsPerCore ∧ c.slotsFor p < UInt64.size ∧ n = c.slotsFor p := by
  rcases slotCount_cases detected hint with
    ⟨hzero, h⟩ | ⟨hzero, hsize, h⟩ | ⟨hzero, hsize, h⟩
  · simp [h, hzero]
  · simp [h, Nat.not_lt.mpr hsize]
  · simp [h, UInt64.pos_iff_ne_zero, hzero, hsize, eq_comm]

/-- There are at least as many slots as threads to run at once. -/
theorem le_slotsFor (p : Parallelism) (h : 0 < c.slotsPerCore) : p.val.toNat ≤ c.slotsFor p :=
  Nat.le_mul_of_pos_right _ (UInt64.lt_iff_toNat_lt.mp h)

theorem validate_eq_error_iff {e : ConfigError} :
    c.validate detected = .error e ↔ c.slotCount detected = .error e := by
  cases h : c.slotCount detected <;> simp [validate, h, Except.map]

theorem validate_eq_ok_iff :
    c.validate detected = .ok () ↔ ∃ n, c.slotCount detected = .ok n := by
  cases h : c.slotCount detected <;> simp [validate, h, Except.map]

end Config

/-- A gate opens on any number of slots but zero. -/
theorem Gate.exists_create {slots : Nat} (h : 0 < slots) (slowDrain : Option Duration) :
    ∃ gate, Gate.create slots slowDrain = .ok gate ∧ gate.indicator.size = slots := by
  rw [create, Indicator.create, dif_neg (Nat.ne_of_gt h)]
  exact ⟨_, rfl, List.length_replicate⟩

namespace TwinSet

variable {S K : Type} {detected : Option Parallelism} {config : Config} {assigner : Assigner}
  {strategy : Strategy} {copies : Copies S}

/-! ## Building with a trace -/

/-- What is done on the way to a set. The trace is kept even if the building breaks off. -/
abbrev Building (K α : Type) := ExceptT BuildError (StateM (List (Event K))) α

/-- Note that something was done. -/
def Building.note (e : Event K) : Building K Unit := modify (· ++ [e])

/-- Build a set step by step: count the slots, hand over the configuration, log, open the gate. -/
def build (detected : Option Parallelism) (config : Config) (assigner : Assigner)
    (strategy : Strategy) (copies : Copies S) : Building K (TwinSet S K) := do
  let slots ← MonadExcept.ofExcept ((config.slotCount detected).mapError .config)
  let strategy := strategy.configure config
  Building.note (.configured config strategy)
  Building.note (.created slots config.slotsPerCore)
  let gate ← MonadExcept.ofExcept ((Gate.create slots config.slowDrain).mapError .fault)
  return { gate, strategy, content := { copies, assigner }, events := ← get }

/-- A building that breaks off at the configuration has done nothing. -/
theorem run_build_of_error {error : ConfigError} (h : config.slotCount detected = .error error) :
    (build (K := K) detected config assigner strategy copies).run.run [] =
      (.error (.config error), []) := by
  rw [build, h]
  rfl

/-- Whether a set is new: of so many slots under each version, on none of which anybody is counted,
with empty copies of which the left one is visible, and with a strategy that was handed the
configuration once and otherwise left alone. -/
structure IsNew [OrderedSet S K] (slots : Nat) (config : Config) (assigner : Assigner)
    (strategy : Strategy) (g : TwinSet S K) : Prop where
  /-- There are so many slots, each with a counter for either version. -/
  size : g.gate.indicator.size = slots
  /-- All counters are at zero. -/
  count : ∀ v slot, g.gate.indicator.count v slot = 0
  /-- New readers look at the left copy. -/
  selector : g.gate.selector = .left
  /-- New readers arrive under version zero. -/
  current : g.gate.indicator.current = .zero
  /-- Drains are slow from the threshold of the configuration on. -/
  slowDrain : g.gate.slowDrain = config.slowDrain
  /-- Both copies are empty, nobody is inside, and no slot was assigned yet. -/
  content : g.content = { copies := ⟨OrderedSet.empty, OrderedSet.empty⟩, assigner }
  /-- The strategy is as the configuration made it. -/
  configured : g.strategy = strategy.configure config
  /-- It was called once, to be handed the configuration. -/
  calls : Event.calls g.events = [.configure config]

/-- A configuration that comes to some slots is all that a new set needs. -/
theorem exists_create {slots : Nat} (h : config.slotCount detected = .ok slots)
    (assigner : Assigner) (strategy : Strategy) (copies : Copies S) :
    ∃ g : TwinSet S K, create detected config assigner strategy copies = .ok g ∧
      (build detected config assigner strategy copies).run.run [] = (.ok g, g.events) ∧
      g.gate.indicator.size = slots := by
  obtain ⟨gate, hgate, hsize⟩ := Gate.exists_create (Config.slotCount_pos h) config.slowDrain
  let strategy' := strategy.configure config
  refine ⟨{
    gate, strategy := strategy'
    content := { copies, assigner }
    events := [.configured config strategy', .created slots config.slotsPerCore] }, ?_, ?_, hsize⟩
  · rw [create, h]
    dsimp only
    rw [hgate]
  · simp only [build, h, Except.mapError, MonadExcept.ofExcept, pure_bind, hgate]
    rfl

/-- A set that was built of empty copies is new. -/
theorem isNew_of_create [OrderedSet S K] {g : TwinSet S K}
    (h : create detected config assigner strategy ⟨OrderedSet.empty, OrderedSet.empty⟩ = .ok g) :
    g.IsNew g.gate.indicator.size config assigner strategy := by
  obtain ⟨hselector, hcurrent, hslow, hstrategy, hcontent, hevents⟩ := create_eq_ok h
  refine {
    size := rfl
    count := fun v slot => ?_
    selector := hselector
    current := hcurrent
    slowDrain := hslow
    content := hcontent
    configured := hstrategy
    calls := by rw [hevents]; rfl }
  have hinside : g.inside = [] := by
    rw [Gated.inside, hcontent]
    rfl
  rw [(accounted_create h).count_eq slot v, Gated.places, hinside]
  rfl

/-- Which configurations can be used, with their number of slots, and that the ways of building a
set all go by this. One that cannot be used is refused with the same error everywhere, and then
nothing was done. From one that can be used a new set of that many slots comes out. -/
theorem built_as_configured [OrderedSet S K] (detected : Option Parallelism) {config : Config}
    {p : Parallelism} (hint : config.parallelism = some p) :
    ((config.slotCount detected = .error .noSlots ↔ config.slotsPerCore = 0) ∧
      (∀ m n, config.slotCount detected = .error (.tooManySlots m n) ↔
        0 < config.slotsPerCore ∧ UInt64.size ≤ config.slotsFor p ∧
          m = p.val ∧ n = config.slotsPerCore) ∧
      (∀ n, config.slotCount detected = .ok n ↔
        0 < config.slotsPerCore ∧ config.slotsFor p < UInt64.size ∧ n = config.slotsFor p) ∧
      ∀ n, config.slotCount detected = .ok n → 1 ≤ n ∧ p.val.toNat ≤ n) ∧
    (∀ error, config.slotCount detected = .error error →
      config.validate detected = .error error ∧
      (ofConfig detected config : Except BuildError (TwinSet S K)) = .error (.config error) ∧
      ∀ assigner strategy (copies : Copies S),
        (create detected config assigner strategy copies : Except BuildError (TwinSet S K)) =
            .error (.config error) ∧
          (build (K := K) detected config assigner strategy copies).run.run [] =
            (.error (.config error), [])) ∧
    ∀ slots, config.slotCount detected = .ok slots →
      config.validate detected = .ok () ∧
      (∃ g : TwinSet S K, ofConfig detected config = .ok g ∧
        g.IsNew slots config .hashed (.backoff (.fresh none))) ∧
      ∀ assigner strategy, ∃ g : TwinSet S K,
        create detected config assigner strategy ⟨OrderedSet.empty, OrderedSet.empty⟩ = .ok g ∧
          (build detected config assigner strategy
            ⟨OrderedSet.empty, OrderedSet.empty⟩).run.run [] = (.ok g, g.events) ∧
          g.IsNew slots config assigner strategy := by
  have hnew : ∀ {slots} assigner strategy, config.slotCount detected = .ok slots →
      ∃ g : TwinSet S K,
        create detected config assigner strategy ⟨OrderedSet.empty, OrderedSet.empty⟩ = .ok g ∧
          (build detected config assigner strategy
            ⟨OrderedSet.empty, OrderedSet.empty⟩).run.run [] = (.ok g, g.events) ∧
          g.IsNew slots config assigner strategy := by
    intro slots assigner strategy hslots
    let copies : Copies S := ⟨OrderedSet.empty, OrderedSet.empty⟩
    obtain ⟨g, hcreate, hbuild, hsize⟩ := exists_create hslots assigner strategy copies
    exact ⟨g, hcreate, hbuild, hsize ▸ isNew_of_create hcreate⟩
  refine ⟨⟨Config.slotCount_eq_noSlots_iff hint,
    fun m n => Config.slotCount_eq_tooManySlots_iff hint,
    fun n => Config.slotCount_eq_ok_iff hint, fun n hn => ?_⟩, fun error herror => ?_,
    fun slots hslots => ?_⟩
  · obtain ⟨hpos, -, rfl⟩ := (Config.slotCount_eq_ok_iff hint).mp hn
    exact ⟨Config.slotCount_pos hn, Config.le_slotsFor p hpos⟩
  · have hcreate : ∀ assigner strategy (copies : Copies S),
        (create detected config assigner strategy copies : Except BuildError (TwinSet S K)) =
          .error (.config error) := by
      intro assigner strategy copies
      rw [create, herror]
    exact ⟨Config.validate_eq_error_iff.mpr herror, hcreate _ _ _,
      fun assigner strategy copies => ⟨hcreate _ _ _, run_build_of_error herror⟩⟩
  · obtain ⟨g, hcreate, -, hg⟩ := hnew .hashed (.backoff (.fresh none)) hslots
    exact ⟨Config.validate_eq_ok_iff.mpr ⟨slots, hslots⟩, ⟨g, hcreate, hg⟩,
      fun assigner strategy => hnew assigner strategy hslots⟩

theorem twoToThe32_ne_zero : (4294967296 : UInt64) ≠ 0 := by decide

/-- A parallelism and a number of slots for each unit of it whose product is the first that no
longer fits into a word. -/
def boundless : Config where
  parallelism := some ⟨4294967296, twoToThe32_ne_zero⟩
  slotsPerCore := 4294967296
  slowDrain := none

theorem three_ne_zero : (3 : UInt64) ≠ 0 := by decide

/-- Three threads, and two slots for each of them. -/
def modest : Config where
  parallelism := some ⟨3, three_ne_zero⟩
  slotsPerCore := 2
  slowDrain := none

/-- The first product beyond a word is refused before anything is done, and six slots make a new
set. -/
theorem built_as_configured_limits :
    boundless.parallelism = some ⟨4294967296, twoToThe32_ne_zero⟩ ∧
      boundless.validate none = .error (.tooManySlots 4294967296 4294967296) ∧
      (build (K := Int) none boundless .sequential .yielding
          (⟨{}, {}⟩ : Copies (SortedList Int))).run.run [] =
        (.error (.config (.tooManySlots 4294967296 4294967296)), []) ∧
      modest.parallelism = some ⟨3, three_ne_zero⟩ ∧ modest.slotCount none = .ok 6 ∧
      ∃ g : TwinSet (SortedList Int) Int,
        create none modest .sequential .yielding ⟨{}, {}⟩ = .ok g ∧
          g.IsNew 6 modest .sequential .yielding := by
  have hhint : boundless.parallelism = some ⟨4294967296, twoToThe32_ne_zero⟩ := rfl
  have hhint' : modest.parallelism = some ⟨3, three_ne_zero⟩ := rfl
  have hboundless := built_as_configured (S := SortedList Int) none hhint
  have hmodest := built_as_configured (S := SortedList Int) none hhint'
  have herror : boundless.slotCount none = .error (.tooManySlots 4294967296 4294967296) :=
    (hboundless.1.2.1 _ _).mpr (by decide)
  have hslots : modest.slotCount none = .ok 6 := (hmodest.1.2.2.1 6).mpr (by decide)
  obtain ⟨hvalidate, -, hparts⟩ := hboundless.2.1 _ herror
  obtain ⟨-, -, hbuilt⟩ := hmodest.2.2 6 hslots
  obtain ⟨g, hcreate, -, hg⟩ := hbuilt .sequential .yielding
  exact ⟨hhint, hvalidate, (hparts .sequential .yielding ⟨{}, {}⟩).2, hhint', hslots, g, hcreate,
    hg⟩

end TwinSet

end LeftRight
