import LeftRight.Proofs.Draining
import LeftRight.Proofs.Unwinding

/-!
# Attendance of a set

The readers of a twin set against its counters. Whether a read returns, breaks off in its look or
is given a slot that does not exist, and whether a write returns, is refused or breaks off at any
point, each counter is the number of readers inside that arrived there, so long as they are fewer
than there are words.
-/

namespace LeftRight

instance : Placed Reader := ⟨fun reader => (reader.slot, reader.version)⟩

instance {S : Type} : Attended (Twin S) Reader := ⟨Twin.inside⟩

namespace TwinSet

variable {S K : Type}

/-- What can happen to a set at one time without its writer. -/
inductive Visited (g : TwinSet S K) : TwinSet S K → Prop
  /-- A reader enters and stays inside, unless it is not given a slot that exists. -/
  | enter (thread : Nat) : Visited g (enter thread g).2
  /-- A reader that is inside leaves. -/
  | leave {reader : Reader} (inside : reader ∈ g.content.inside) : Visited g (leave reader g).2
  /-- A reader enters, looks and leaves, even if its look breaks off. -/
  | read {α : Type} (thread : Nat) (look : Side → S → List (Event K) × Except Fault α) :
      Visited g (read thread look g).2
  /-- The wait strategy or the trace changes. -/
  | aside {g' : TwinSet S K} (gate : g'.gate = g.gate) (content : g'.content = g.content) :
      Visited g g'

/-- What can happen to a set without its writer. -/
def Visits : TwinSet S K → TwinSet S K → Prop := Relation.ReflTransGen Visited

/-- While the writer pauses, which may break off, readers come and go. -/
def Visiting (poll : Poll K (Twin S)) : Prop := ∀ g : TwinSet S K, g.Visits (poll g).2

/-- Whether a deed is done by readers that come and go, or is a write during whose pauses they
do. -/
def Deed.ByVisitors : Deed S K → Prop
  | .write _ polls => ∀ poll ∈ polls, Visiting poll.val
  | .others act _ => ∀ g : TwinSet S K, g.Visits (act g)

/-- How many readers inside are counted at a place. -/
def readersAt (slot : Nat) (v : Version) (g : TwinSet S K) : Nat :=
  g.content.inside.countP fun reader => reader.slot = slot ∧ reader.version = v

variable {g g' : TwinSet S K}

theorem count_places (slot : Nat) (v : Version) (g : TwinSet S K) :
    g.places.count (slot, v) = g.readersAt slot v := by
  rw [Gated.places, List.count, List.countP_map]
  refine List.countP_congr fun reader _ => ?_
  simp [Placed.place]

/-- Who enters arrives at the gate and is inside, or nothing happens there. -/
theorem enter_spec (thread : Nat) (g : TwinSet S K) :
    (∃ fault g₁, enter thread g = (.error fault, g₁) ∧ g₁.gate = g.gate ∧
      g₁.content.inside = g.content.inside) ∨
    ∃ reader g₁, enter thread g = (.ok reader, g₁) ∧
      g.gate.indicator.arrive reader.slot = (.ok reader.version, g₁.gate.indicator) ∧
      g₁.gate.selector = g.gate.selector ∧ reader.side = g.gate.selector ∧
      g₁.content.inside = reader :: g.content.inside := by
  dsimp only [enter, Gated.record_gate]
  cases g.content.assigner.slot g.content.assigned thread g.gate.indicator.size with
  | error fault =>
    refine .inl ⟨fault, _, rfl, ?_, ?_⟩ <;> rfl
  | ok slot =>
    dsimp only
    rcases harrive : g.gate.indicator.arrive slot with ⟨fault | version, indicator⟩
    · refine .inl ⟨fault, _, rfl, ?_, ?_⟩ <;> rfl
    · refine .inr ⟨⟨thread, slot, version, g.gate.selector⟩, _, rfl, ?_, ?_, ?_, ?_⟩
      · exact harrive
      all_goals rfl

/-- Who reads enters, and leaves again unless it could not enter. -/
theorem read_spec {α : Type} (thread : Nat) (look : Side → S → List (Event K) × Except Fault α)
    (g : TwinSet S K) :
    (∃ fault g₁, enter thread g = (.error fault, g₁) ∧ (read thread look g).2 = g₁) ∨
    ∃ reader g₁ noted, enter thread g = (.ok reader, g₁) ∧ reader ∈ g₁.content.inside ∧
      (read thread look g).2 = (leave reader { g₁ with events := g₁.events ++ noted }).2 := by
  rcases enter_spec thread g with
    ⟨fault, g₁, henter, -, -⟩ | ⟨reader, g₁, henter, -, -, -, hinside⟩
  · refine .inl ⟨fault, g₁, henter, ?_⟩
    simp only [read, henter]
  · refine .inr ⟨reader, g₁, (look reader.side (g₁.content.copies.get reader.side)).1, henter,
      ?_, ?_⟩
    · rw [hinside]
      exact List.mem_cons_self ..
    · simp only [read, henter]
      split <;> rename_i hleave <;> rw [hleave]

theorem stirs_enter (thread : Nat) (g : TwinSet S K) : Gated.Stirs g (enter thread g).2 := by
  rcases enter_spec thread g with
    ⟨fault, g₁, henter, hgate, hinside⟩ | ⟨reader, g₁, henter, harrive, -, -, hinside⟩
  · rw [henter]
    exact .rest (by rw [hgate]) hinside
  · rw [henter]
    exact .arrive reader harrive (.of_eq hinside)

theorem stirs_leave {reader : Reader} (h : reader ∈ g.content.inside) :
    Gated.Stirs g (leave reader g).2 :=
  .leave reader rfl (List.perm_cons_erase h)

/-- What readers do to a set is what they do at its gate. -/
theorem Visited.traffic (h : g.Visited g') : Gated.Traffic g g' := by
  cases h with
  | enter thread => exact .single (stirs_enter thread g)
  | leave inside => exact .single (stirs_leave inside)
  | read thread look =>
    have hentered : Gated.Traffic g (TwinSet.enter thread g).2 := .single (stirs_enter thread g)
    rcases read_spec thread look g with
      ⟨fault, g₁, henter, hread⟩ | ⟨reader, g₁, noted, henter, hmem, hread⟩
    · rw [henter] at hentered
      rwa [hread]
    · rw [henter] at hentered
      rw [hread]
      have hnoted : Gated.Stirs g₁ { g₁ with events := g₁.events ++ noted } := .rest rfl rfl
      exact (hentered.tail hnoted).tail (stirs_leave hmem)
  | aside gate content =>
    exact .single (.rest (by rw [gate]) (by rw [Gated.inside, content]; rfl))

theorem Visits.traffic (h : g.Visits g') : Gated.Traffic g g' := by
  induction h with
  | refl => exact .refl
  | tail _ hvisited ih => exact ih.trans hvisited.traffic

theorem Visiting.orderly {poll : Poll K (Twin S)} (h : Visiting poll) : Gated.Orderly poll :=
  fun g => (h g).traffic

/-- What a new set is made of. -/
theorem create_eq_ok {detected : Option Parallelism} {config : Config} {assigner : Assigner}
    {strategy : Strategy} {copies : Copies S}
    (h : create detected config assigner strategy copies = .ok g) :
    g.gate.selector = .left ∧ g.gate.indicator.current = .zero ∧
      g.gate.slowDrain = config.slowDrain ∧ g.strategy = strategy.configure config ∧
      g.content = { copies, assigner } ∧
      g.events = [.configured config (strategy.configure config),
        .created g.gate.indicator.size config.slotsPerCore] := by
  unfold create Gate.create Indicator.create at h
  split at h
  · cases h
  · dsimp only at h
    split at h
    · cases h
    · rename_i slots _ gate hgate
      split at hgate
      · cases hgate
      · cases hgate
        cases h
        simp [Indicator.size]

/-- Nobody is inside a new set, and nobody is counted. -/
theorem accounted_create {detected : Option Parallelism} {config : Config} {assigner : Assigner}
    {strategy : Strategy} {copies : Copies S}
    (h : create detected config assigner strategy copies = .ok g) : g.Accounted := by
  unfold create at h
  split at h
  · cases h
  · dsimp only at h
    split at h
    · cases h
    · rename_i hgate
      cases h
      exact Gate.accounts_of_create hgate

/-- A reader that is given a slot which does not exist breaks off before it is counted. -/
theorem read_outOfRange {α : Type} {thread slot : Nat}
    (hslot : g.content.assigner.slot g.content.assigned thread g.gate.indicator.size = .ok slot)
    (hrange : g.gate.indicator.size ≤ slot)
    (look : Side → S → List (Event K) × Except Fault α) :
    (read thread look g).1 = .error (.slotOutOfRange g.gate.indicator.size slot) ∧
      (read thread look g).2.gate = g.gate ∧
      (read thread look g).2.content.inside = g.content.inside := by
  have harrive : g.gate.indicator.arrive slot =
      (.error (.slotOutOfRange g.gate.indicator.size slot), g.gate.indicator) := by
    rw [Indicator.arrive, if_neg (Nat.not_lt.mpr hrange)]
  simp only [read, enter, hslot, Gated.record_gate, harrive]
  exact ⟨trivial, trivial, rfl⟩

/-- A set of which the counters are right, and what follows for those who come and go. -/
structure Balanced (g : TwinSet S K) : Prop where
  /-- A counter that is not crowded is the number of readers inside that arrived there. -/
  count_eq : ∀ slot v, g.readersAt slot v < UInt64.size →
    (g.gate.indicator.count v slot).toNat = g.readersAt slot v
  /-- Whoever is inside may leave. -/
  leave_eq : ∀ reader ∈ g.content.inside,
    g.readersAt reader.slot reader.version < UInt64.size → (leave reader g).1 = .ok ()
  /-- Who is given a slot that exists, and is not one too many there, is told what the look at the
  visible copy tells. -/
  read_eq : ∀ {α : Type} (thread slot : Nat) (look : Side → S → List (Event K) × Except Fault α),
    g.content.assigner.slot g.content.assigned thread g.gate.indicator.size = .ok slot →
    slot < g.gate.indicator.size →
    g.readersAt slot g.gate.indicator.current + 1 < UInt64.size →
    (read thread look g).1 = (look g.gate.selector g.visibleCopy).2
  /-- Who is given a slot that does not exist is neither counted nor inside. -/
  outOfRange : ∀ {α : Type} (thread slot : Nat)
    (look : Side → S → List (Event K) × Except Fault α),
    g.content.assigner.slot g.content.assigned thread g.gate.indicator.size = .ok slot →
    g.gate.indicator.size ≤ slot →
    (read thread look g).1 = .error (.slotOutOfRange g.gate.indicator.size slot) ∧
      (read thread look g).2.gate = g.gate ∧
      (read thread look g).2.content.inside = g.content.inside
  /-- When nobody is inside, both versions are empty. -/
  isEmpty : g.content.inside = [] → ∀ v, g.gate.indicator.isEmpty v = true

/-- A set of which the accounts are right is balanced. -/
theorem Balanced.of_accounted (h : g.Accounted) : g.Balanced where
  count_eq slot v hroom := by
    rw [← count_places] at hroom ⊢
    exact Indicator.Accounts.toNat_count h hroom
  leave_eq reader hmem hroom := by
    rw [← count_places] at hroom
    exact Indicator.Accounts.depart_ok h hroom (List.mem_map_of_mem hmem)
  read_eq thread slot look hslot hrange hroom := by
    refine read_of_admits ⟨slot, hslot, hrange, ?_⟩ look
    -- One more reader does not wrap the counter around.
    rw [← count_places] at hroom
    have harrived := Indicator.Accounts.adjust_add (v := g.gate.indicator.current) h hrange
    have hmem : (slot, g.gate.indicator.current) ∈
        (slot, g.gate.indicator.current) :: g.places := List.mem_cons_self ..
    have hcount := harrived.count_ne_zero (by rwa [List.count_cons_self]) hmem
    rwa [Indicator.count_adjust hrange] at hcount
  outOfRange thread slot look hslot hrange := read_outOfRange hslot hrange look
  isEmpty hinside v := by
    refine Indicator.Accounts.isEmpty_of_forall h fun place hplace => ?_
    have hplaces : g.places = [] := congrArg (List.map Placed.place) hinside
    rw [hplaces] at hplace
    cases hplace

variable [OrderedSet S K] {change : Change K} {g₀ : TwinSet S K}

/-- A publication leaves the accounts right. -/
theorem Published.accounted (h : Published change g g₀) (hg : g.Accounted) : g₀.Accounted := by
  obtain ⟨g₁, hmutate, rfl⟩ := h
  have hg₁ : (mutate g.gate.selector.other change g).2.Accounted := hg
  rw [hmutate] at hg₁
  exact hg₁

/-- However a write ends, it leaves the accounts right. -/
theorem accounted_write (change : Change K) {polls : List (Poll K (Twin S))}
    (hpolls : ∀ poll ∈ polls, Gated.Orderly poll) (h : g.Accounted) :
    (write change polls g).2.Accounted := by
  have hproceeds := proceeds_write change polls g
  generalize write change polls g = result at hproceeds ⊢
  cases hproceeds with
  | ineffective => exact h
  | interrupted published broken =>
    have htoggle := (published.accounted h).toggle hpolls
    rwa [broken] at htoggle
  | replayed published waited =>
    have htoggle := (published.accounted h).toggle hpolls
    rw [waited] at htoggle
    exact htoggle

/-- Each deed leaves the accounts right. -/
theorem Deed.accounted_perform {deed : Deed S K} (hdeed : deed.ByVisitors) (h : g.Accounted) :
    (deed.perform g).Accounted := by
  cases deed with
  | write change polls =>
    refine accounted_write change (fun poll hpoll => ?_) h
    obtain ⟨visiting, hmem, rfl⟩ := List.mem_map.mp hpoll
    exact (hdeed visiting hmem).orderly
  | others act undisturbed => exact (hdeed g).traffic.accounted h

/-- Deeds leave the accounts right. -/
theorem accounted_follow {deeds : List (Deed S K)} (hdeeds : ∀ deed ∈ deeds, deed.ByVisitors)
    (h : g.Accounted) : (follow deeds g).Accounted := by
  induction deeds generalizing g with
  | nil => exact h
  | cons deed deeds ih =>
    have hdeed := Deed.accounted_perform (hdeeds deed (List.mem_cons_self ..)) h
    exact ih (fun deed hmem => hdeeds deed (List.mem_cons_of_mem _ hmem)) hdeed

/-- A set of numbers with a single slot, which the threads of odd number miss. -/
def missedSet : TwinSet (SortedList Nat) Nat :=
  { SetSession.narrowSession.set with content.assigner := .table [0, 5] }

theorem create_missedSet : create none SetSession.narrowConfig (.table [0, 5]) .yielding ⟨{}, {}⟩ =
    .ok missedSet := rfl

/-- One reader is inside, one misses the slot and the look of one breaks off. Then two writes are
given up, each while the reader is inside; another one enters between them, and one more during the
second. -/
def mixedDeeds : List (Deed (SortedList Nat) Nat) := [
  .others (fun g => (enter 2 g).2) (undisturbed_enter 2),
  .others (fun g => (read 1 (fun _ _ => ([], .ok ())) g).2) (undisturbed_read 1 _ (by simp)),
  .others (fun g => (read 2 (fun _ _ => ([], Except.error (α := Unit) (.raised "blew up"))) g).2)
    (undisturbed_read 2 _ (by simp)),
  .write (.add 1) [⟨fun g => (.error (.raised "gave up"), g), fun g => .refl g⟩],
  .others (fun g => (enter 4 g).2) (undisturbed_enter 4),
  .write (.add 2)
    [⟨fun g => (.error (.raised "gave up"), (enter 6 g).2), undisturbed_enter 6⟩]]

theorem byVisitors_mixedDeeds : ∀ deed ∈ mixedDeeds, deed.ByVisitors := by
  simp only [mixedDeeds, List.forall_mem_cons, List.not_mem_nil, false_implies, implies_true,
    and_true, Deed.ByVisitors]
  refine ⟨fun g => .single (.enter 2), fun g => .single (.read 1 _), fun g => .single (.read 2 _),
    fun g => .refl, fun g => .single (.enter 4), fun g => .single (.enter 6)⟩

end TwinSet

end LeftRight
