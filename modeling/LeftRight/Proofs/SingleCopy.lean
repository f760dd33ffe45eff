import LeftRight.Proofs.Attendance

/-!
# Sessions with a single copy

As long as nothing unwinds in a write, a set in two copies is a single one: between two steps of a
session both copies are the copy to which the same changes were made one after another, and what is
answered is what that copy answers. Readers break off for a reason of their own, or because they
miss their slot or are one too many on a counter, and the set is taken apart if nobody is inside.
-/

namespace LeftRight

open OrderedSet

namespace TwinSet

section Visitors

variable {S K R : Type} {g : TwinSet S K}

theorem visits_leaveAll {readers : List Reader} (hperm : readers.Perm g.content.inside) :
    g.Visits (leaveAll readers g) := by
  induction readers generalizing g with
  | nil => exact .refl
  | cons reader readers ih =>
    have hinside : reader ∈ g.content.inside := hperm.subset (List.mem_cons_self ..)
    have hrest : readers.Perm (leave reader g).2.content.inside :=
      (List.cons_perm_iff_perm_erase.mp hperm).2
    exact (ih hrest).head (.leave hinside)

theorem visits_release (g : TwinSet S K) : g.Visits (release g).2 :=
  visits_leaveAll (List.mergeSort_perm _ _)

variable {crew : Company R K (Twin S)}

/-- Who only comes and goes when something is asked for only comes and goes in a pause. -/
theorem visiting_turn (hperform : ∀ request g, Visits g (crew.perform request g).2)
    (hrelease : ∀ g, Visits g (crew.release g).2) (moves : List (Move R))
    (did : List (Answer K)) : Visiting (crew.turn moves did) := by
  intro g
  refine crew.related_turn .trans hperform hrelease ?_ ?_ moves did g
  · exact fun did g => .single (.aside rfl rfl)
  · exact fun did released g => .single (.aside rfl rfl)

theorem visiting_lastTurn (hrelease : ∀ g, Visits g (crew.release g).2) :
    Visiting crew.lastTurn := by
  intro g
  refine crew.related_lastTurn .trans hrelease ?_ ?_ g
  · exact fun did g => .single (.aside rfl rfl)
  · exact fun g => .single (.aside rfl rfl)

theorem visiting_polls (hperform : ∀ request g, Visits g (crew.perform request g).2)
    (hrelease : ∀ g, Visits g (crew.release g).2) (script : Script R) :
    ∀ poll ∈ crew.polls script, Visiting poll := by
  intro poll hpoll
  rcases List.mem_append.mp hpoll with hpoll | hpoll
  · obtain ⟨moves, -, rfl⟩ := List.mem_map.mp hpoll
    exact visiting_turn hperform hrelease moves []
  · rw [List.mem_singleton.mp hpoll]
    exact visiting_lastTurn hrelease

theorem Acts.visits {g' : TwinSet S K} (h : g.Acts g') : g.Visits g' := by
  cases h with
  | read thread look => exact .single (.read thread look)
  | enter thread => exact .single (.enter thread)
  | leave inside => exact .single (.leave inside)
  | nothing => exact .refl

variable [OrderedSet S K]

/-- Whatever is asked of a set, readers come and go. -/
theorem visits_perform (mayStay : Bool) (request : SetRequest K) (g : TwinSet S K) :
    g.Visits (perform mayStay request g).2 := (acts_perform mayStay request g).visits

theorem visiting_company (mayStay : Bool) (script : Script (SetRequest K)) :
    ∀ poll ∈ (company (S := S) mayStay).polls script, Visiting poll :=
  visiting_polls (visits_perform mayStay) visits_release script

end Visitors

section Departures

variable {S K : Type} {g : TwinSet S K}

/-- Why a reader that is inside is not let out: so many are counted where it is that the counter has
come round to zero. -/
inductive Traps (reader : Reader) (g : TwinSet S K) : Fault → Prop
  /-- The counter is zero all the same. -/
  | full (empty : g.gate.indicator.count reader.version reader.slot = 0)
      (crowded : UInt64.size ≤ g.readersAt reader.slot reader.version) :
      Traps reader g (.underflow reader.slot reader.version)

/-- Whoever is inside may leave, unless a counter has come round to zero. -/
theorem leave_outcome (haccounted : g.Accounted) {reader : Reader}
    (hinside : reader ∈ g.content.inside) :
    (g.gate.indicator.count reader.version reader.slot ≠ 0 ∧ (leave reader g).1 = .ok ()) ∨
      ∃ fault, g.Traps reader fault ∧ (leave reader g).1 = .error fault := by
  have hplace : (reader.slot, reader.version) ∈ Gated.places g := List.mem_map_of_mem hinside
  have hrange : reader.slot < g.gate.indicator.size := haccounted.inRange _ hplace
  by_cases hempty : g.gate.indicator.count reader.version reader.slot = 0
  · refine .inr ⟨_, .full hempty ?_, ?_⟩
    · by_contra hroom
      have hcount := haccounted.toNat_count
        ((count_places reader.slot reader.version g).trans_lt (Nat.not_le.mp hroom))
      rw [hempty] at hcount
      exact (List.count_pos_iff.mpr hplace).ne hcount
    · simp only [leave, Indicator.depart, hrange, hempty, if_true]
  · refine .inl ⟨hempty, ?_⟩
    simp only [leave, Indicator.depart, hrange, hempty, if_true, if_false]

/-- What is told who takes a set apart: what is asked for, if nobody is inside, and nothing else. -/
def TakesApart (g : TwinSet S K) (asked answer : Answer K) : Prop :=
  (g.content.inside = [] → answer = asked) ∧ (g.content.inside ≠ [] → answer = .refused)

theorem takesApart_takeApart (asked : Answer K) (g : TwinSet S K) :
    g.TakesApart asked (takeApart asked g) := by
  unfold takeApart
  constructor
  · intro hinside
    simp [hinside]
  · intro hinside
    simp [hinside]

end Departures

end TwinSet

/-- The change that a step makes. -/
def SetStep.change? {K : Type} : SetStep K → Option (Change K)
  | write change _ => some change
  | _ => none

namespace SetSession

open TwinSet

variable {S K : Type}

/-- What whoever asks is told: one thing if nothing is in the way, or else the fault that is. -/
inductive Receives (Passes : Prop) (Fails : Fault → Prop) (told : Answer K) : Answer K → Prop
  /-- Nothing is in the way. -/
  | passes (passes : Passes) : Receives Passes Fails told told
  /-- Something is. -/
  | fails {fault : Fault} (fails : Fails fault) : Receives Passes Fails told (.fault fault)

/-- What a new reader is answered. -/
theorem receives_read {α : Type} {told : Answer K} (thread : Nat)
    (look : Side → S → List (Event K) × Except Fault α) {g : TwinSet S K} {answer : α → Answer K}
    (htold : .ofOutcome answer (look g.gate.selector g.visibleCopy).2 = told) :
    Receives (g.Admits thread) (g.Denies thread) told
      (.ofOutcome answer (read thread look g).1) := by
  rcases read_outcome thread look g with ⟨hadmits, hread⟩ | ⟨fault, hdenies, hread⟩
  · rw [hread, htold]
    exact .passes hadmits
  · rw [hread]
    exact .fails hdenies

variable [OrderedSet S K]

/-- What the changes of some steps make of a single copy. -/
def single (steps : List (SetStep K)) (s₀ : S) : S := applyAll (steps.filterMap (·.change?)) s₀

/-- What is told who asks a single copy: new readers are told what the copy holds if they are
admitted, those who stay inside what they see of it when they enter and when they leave. A read that
is to break off does. -/
def Answers (c : S) (mayStay : Bool) (g : TwinSet S K) (answer : Answer K) :
    SetRequest K → Prop
  | .contains key thread =>
    Receives (g.Admits thread) (g.Denies thread) (.flag (contains key c)) answer
  | .size thread => Receives (g.Admits thread) (g.Denies thread) (.size (size c)) answer
  | .isEmpty thread => Receives (g.Admits thread) (g.Denies thread) (.flag (isEmpty c)) answer
  | .keys thread => Receives (g.Admits thread) (g.Denies thread) (.keys (toList c)) answer
  | .raise message thread =>
    Receives (g.Admits thread) (g.Denies thread) (.fault (.raised message)) answer
  | .enter thread =>
    if mayStay && thread != 0 then
      Receives (g.Seats thread) (g.Misses thread) (.keys (toList c)) answer
    else answer = .refused
  | .leave thread message =>
    match g.content.inside.find? (·.thread == thread) with
    | none => answer = .notInside
    | some reader =>
      Receives (g.gate.indicator.count reader.version reader.slot ≠ 0) (g.Traps reader)
        (message.elim (.keys (toList c)) fun message => .fault (.raised message)) answer
  | _ => True

/-- Whether a step goes as with a single copy. A write returns what the copy returns, and if the
first change has an effect then so has the second. -/
def Tells (c : S) (s : SetSession S K) (answer : Answer K) (events : List (Event K)) :
    SetStep K → Prop
  | .write change _ => ∃ effective, (apply change c).1 = .ok effective ∧
      answer = .flag effective ∧
      events.filter (·.isChange) = noted change s.set.gate.selector.other effective
  | .ask request => Answers c s.mayStay s.set answer request
  | .intoCopies => s.set.TakesApart (.copies (toList c) (toList c)) answer
  | .intoInner => s.set.TakesApart (.keys (toList c)) answer

/-- Whether nothing broke off in a write, and no step was taken after the set was taken apart. -/
def Quiet (transcript : List (Answer K × List (Event K))) : Prop :=
  ∀ p ∈ transcript, p.1 ≠ .consumed ∧ ∀ e ∈ p.2, e.unwinds = false

instance [DecidableEq K] (transcript : List (Answer K × List (Event K))) :
    Decidable (Quiet transcript) :=
  inferInstanceAs (Decidable (∀ p ∈ transcript, _))

/-- What new readers of a thread are told by a set that is a single copy. -/
structure Reads (c : S) (thread : Nat) (g : TwinSet S K) : Prop where
  /-- Whether a key is present. -/
  contains : ∀ key, (TwinSet.contains thread key g).1 = .ok (OrderedSet.contains key c)
  /-- How many keys there are. -/
  size : (TwinSet.size thread g).1 = .ok (OrderedSet.size c)
  /-- Whether there are none. -/
  isEmpty : (TwinSet.isEmpty thread g).1 = .ok (OrderedSet.isEmpty c)
  /-- The keys. -/
  toList : (TwinSet.toList thread g).1 = .ok (OrderedSet.toList c)
  /-- Whatever they look for. -/
  read : ∀ (α : Type) (look : Side → S → List (Event K) × Except Fault α),
    (TwinSet.read thread look g).1 = (look g.gate.selector c).2

/-- A session which goes as one with a single copy. -/
structure Refines (s₀ : S) (steps : List (SetStep K)) (s : SetSession S K) : Prop where
  /-- Between two steps both copies are the single one. -/
  copies : ∀ i, (s.run (steps.take i)).2.set.content.copies =
    ⟨single (steps.take i) s₀, single (steps.take i) s₀⟩
  /-- Each step is answered as by the single copy. -/
  answers : ∀ i step, steps[i]? = some step → ∃ answer events,
    (s.run steps).1[i]? = some (answer, events) ∧
      Tells (single (steps.take i) s₀) (s.run (steps.take i)).2 answer events step
  /-- A new reader that is admitted between two steps sees the single copy. -/
  reads : ∀ i thread, (s.run (steps.take i)).2.set.Admits thread →
    Reads (single (steps.take i) s₀) thread (s.run (steps.take i)).2.set

theorem single_cons (step : SetStep K) (steps : List (SetStep K)) (c : S) :
    single (step :: steps) c = single steps (single [step] c) := by cases step <;> rfl

/-- New readers that are admitted see the single copy. -/
theorem reads_of_admits {c : S} {g : TwinSet S K} (hcopies : g.content.copies = ⟨c, c⟩)
    {thread : Nat} (hadmits : g.Admits thread) : Reads c thread g := by
  obtain ⟨rfl, -⟩ := copies_eq_iff.mp hcopies
  exact ⟨fun _ => read_of_admits hadmits _, read_of_admits hadmits _, read_of_admits hadmits _,
    read_of_admits hadmits _, fun _ => read_of_admits hadmits⟩

/-- A thread that enters and stays sees the single copy. -/
theorem answers_enter {c : S} {g : TwinSet S K} (hcopies : g.content.copies = ⟨c, c⟩)
    (mayStay : Bool) (thread : Nat) :
    Answers c mayStay g (TwinSet.perform mayStay (.enter thread) g).1 (.enter thread) := by
  dsimp only [Answers, TwinSet.perform]
  by_cases hstay : (mayStay && thread != 0) = true
  · rw [if_pos hstay, if_pos hstay]
    have hundisturbed := undisturbed_enter thread g
    have houtcome := enter_outcome thread g
    rcases hentered : enter thread g with ⟨outcome, g'⟩
    rw [hentered] at hundisturbed houtcome
    rcases houtcome with ⟨hseats, reader, rfl⟩ | ⟨fault, hmisses, rfl⟩
    · have hseen : seenBy reader g' = toList c := by
        rw [seenBy, hundisturbed.copies, hcopies, Copies.get_same]
      rw [← hseen]
      exact .passes hseats
    · exact .fails hmisses
  · rw [if_neg hstay, if_neg hstay]

/-- A reader that leaves has seen the single copy. -/
theorem answers_leave {c : S} {g : TwinSet S K} (hcopies : g.content.copies = ⟨c, c⟩)
    (haccounted : g.Accounted) (mayStay : Bool) (thread : Nat) (message : Option String) :
    Answers c mayStay g (TwinSet.perform mayStay (.leave thread message) g).1
      (.leave thread message) := by
  dsimp only [Answers, TwinSet.perform]
  cases hfind : g.content.inside.find? (·.thread == thread) with
  | none => rfl
  | some reader =>
    have hseen : seenBy reader g = toList c := by rw [seenBy, hcopies, Copies.get_same]
    have houtcome := leave_outcome haccounted (List.mem_of_find?_eq_some hfind)
    dsimp only
    rcases hleft : leave reader g with ⟨outcome, g'⟩
    rw [hleft] at houtcome
    rcases houtcome with ⟨hcounted, rfl⟩ | ⟨fault, htraps, rfl⟩
    · rw [hseen]
      cases message with
      | none => exact .passes hcounted
      | some message => exact .passes hcounted
    · exact .fails htraps

/-- A request is answered from the single copy. -/
theorem answers_perform {c : S} {g : TwinSet S K} (hcopies : g.content.copies = ⟨c, c⟩)
    (haccounted : g.Accounted) (mayStay : Bool) (request : SetRequest K) :
    Answers c mayStay g (TwinSet.perform mayStay request g).1 request := by
  obtain ⟨rfl, -⟩ := copies_eq_iff.mp hcopies
  cases request with
  | contains key thread =>
    exact receives_read thread (fun side copy =>
      ([.looked key side (OrderedSet.contains key copy)], .ok (OrderedSet.contains key copy))) rfl
  | size thread =>
    exact receives_read thread (fun side copy =>
      ([.measured side (OrderedSet.size copy)], .ok (OrderedSet.size copy))) rfl
  | isEmpty thread =>
    exact receives_read thread (fun side copy =>
      ([.measured side (OrderedSet.size copy)], .ok (OrderedSet.isEmpty copy))) rfl
  | keys thread =>
    exact receives_read thread (fun _ copy => ([], .ok (OrderedSet.toList copy))) rfl
  | raise message thread =>
    exact receives_read thread (fun _ _ => ([], Except.error (α := Unit) (.raised message))) rfl
  | enter thread => exact answers_enter hcopies mayStay thread
  | leave thread message => exact answers_leave hcopies haccounted mayStay thread message
  | visible | otherSide | inspection | view => trivial

/-- A step leaves the counters right. -/
theorem accounted_perform {s : SetSession S K} (haccounted : s.set.Accounted)
    (step : SetStep K) : (s.perform step).2.set.Accounted := by
  unfold perform
  split
  · exact haccounted
  · cases step with
    | ask request => exact (visits_perform s.mayStay request s.set).traffic.accounted haccounted
    | write change script =>
      exact accounted_write change
        (fun poll hpoll => (visiting_company s.mayStay script poll hpoll).orderly) haccounted
    | intoCopies | intoInner => exact haccounted

/-- A step in which nothing unwinds does to both copies what it does to a single one, and is
answered as by that one. -/
theorem perform_converges [Lawful S] {c : S} {s : SetSession S K}
    (hcopies : s.set.content.copies = ⟨c, c⟩) (haccounted : s.set.Accounted)
    (hchanges : s.set.changes = []) (step : SetStep K)
    (hanswer : (s.perform step).1 ≠ .consumed)
    (hquiet : ∀ e ∈ (s.perform step).2.set.events, e.unwinds = false) :
    (s.perform step).2.set.content.copies = ⟨single [step] c, single [step] c⟩ ∧
      Tells c s (s.perform step).1 (s.perform step).2.set.events step := by
  obtain ⟨hvisible, -⟩ := copies_eq_iff.mp hcopies
  have hwhole : s.consumed = false := by
    cases hconsumed : s.consumed with
    | false => rfl
    | true => simp [perform, hconsumed] at hanswer
  cases step with
  | ask request =>
    simp only [perform, hwhole, Bool.false_eq_true, if_false]
    refine ⟨?_, answers_perform hcopies haccounted s.mayStay request⟩
    exact (undisturbed_perform s.mayStay request s.set).copies.trans hcopies
  | write change script =>
    simp only [perform, hwhole, Bool.false_eq_true, if_false] at hquiet ⊢
    rcases hwrite : write change ((company s.mayStay).polls script) s.set with ⟨outcome, g⟩
    rw [hwrite] at hquiet
    obtain ⟨effective, happlied, rfl, hhidden, hnoted⟩ :=
      write_converges (polls_of_script s.mayStay script) hcopies hwrite hquiet
    have hsingle : single [.write change script] c = (apply change c).2 := rfl
    constructor
    · rw [hsingle, happlied]
      exact copies_eq_iff.mpr ⟨rfl, hhidden⟩
    · refine ⟨effective, by rw [happlied], rfl, ?_⟩
      rw [hchanges] at hnoted
      exact hnoted
  | intoCopies =>
    simp only [perform, hwhole, Bool.false_eq_true, if_false]
    refine ⟨hcopies, ?_⟩
    rw [hcopies]
    exact takesApart_takeApart _ s.set
  | intoInner =>
    simp only [perform, hwhole, Bool.false_eq_true, if_false]
    refine ⟨hcopies, ?_⟩
    rw [hvisible]
    exact takesApart_takeApart _ s.set

/-- What holds of a quiet session with two equal copies holds after each number of its steps. -/
theorem run_converges [Lawful S] {c : S} {s : SetSession S K}
    (hcopies : s.set.content.copies = ⟨c, c⟩) (haccounted : s.set.Accounted)
    (hchanges : s.set.changes = []) {steps : List (SetStep K)} (hquiet : Quiet (s.run steps).1)
    (i : Nat) :
    (s.run (steps.take i)).2.set.content.copies =
        ⟨single (steps.take i) c, single (steps.take i) c⟩ ∧
      ∀ step, steps[i]? = some step → ∃ answer events,
        (s.run steps).1[i]? = some (answer, events) ∧
          Tells (single (steps.take i) c) (s.run (steps.take i)).2 answer events step := by
  induction steps generalizing s c i with
  | nil =>
    rw [List.take_nil]
    exact ⟨hcopies, by simp⟩
  | cons step steps ih =>
    rw [run_cons] at hquiet ⊢
    obtain ⟨hanswer, hevents⟩ := hquiet _ (List.mem_cons_self ..)
    obtain ⟨hnext, htold⟩ := perform_converges hcopies haccounted hchanges step hanswer hevents
    cases i with
    | zero =>
      refine ⟨hcopies, ?_⟩
      rintro _ ⟨⟩
      exact ⟨_, _, rfl, htold⟩
    | succ i =>
      have hrest : Quiet ((s.perform step).2.heard.run steps).1 :=
        fun p hp => hquiet p (List.mem_cons_of_mem _ hp)
      have h := ih (s := (s.perform step).2.heard) hnext (accounted_perform haccounted step) rfl
        hrest i
      rw [List.take_succ_cons, run_cons, single_cons]
      exact h

/-- However a set is built of two equal copies, and whoever enters, looks and leaves while its
writers wait, it is a single copy as long as nothing unwinds in a write. -/
theorem refines_single_copy [Lawful S] {detected : Option Parallelism} {config : Config}
    {assigner : Assigner} {strategy : Strategy} {s₀ : S} {g : TwinSet S K}
    (hcreate : create detected config assigner strategy ⟨s₀, s₀⟩ = .ok g) (mayStay : Bool)
    {steps : List (SetStep K)}
    (hquiet : Quiet (SetSession.run steps { set := g, mayStay }).1) :
    Refines s₀ steps { set := g, mayStay } := by
  obtain ⟨-, -, -, -, hcontent, hevents⟩ := create_eq_ok hcreate
  have hcopies : g.content.copies = ⟨s₀, s₀⟩ := by rw [hcontent]
  have hchanges : g.changes = [] := by
    rw [changes, hevents]
    rfl
  have hrun := run_converges (s := { set := g, mayStay }) hcopies (accounted_create hcreate)
    hchanges hquiet
  exact ⟨fun i => (hrun i).1, fun i => (hrun i).2,
    fun i _ hadmits => reads_of_admits (hrun i).1 hadmits⟩

/-- A reader is inside while a number is added. At the second poll for it another one enters and
stays, sees the new copy and holds up the next write but one. -/
def visitedWrites : List (SetStep Nat) := [
  .ask (.enter 1),
  .write (.add 5) [[.ask (.contains 5 2)], [.ask (.enter 2), .ask (.leave 1 none)]],
  .write (.add 5) [],
  .write (.remove 5) [[.ask (.leave 2 none)]],
  .ask (.contains 5 1),
  .intoCopies]

/-- What the single copy tells is told while the two readers come and go. -/
theorem refines_single_copy_visited :
    create none narrowConfig .sequential .yielding ⟨{}, {}⟩ = .ok narrowSession.set ∧
    Quiet (narrowSession.run visitedWrites).1 ∧
    narrowSession.set.Admits 1 ∧
    (narrowSession.run visitedWrites).1.map Prod.fst =
      [.keys [], .flag true, .flag false, .flag true, .flag false, .copies [] []] ∧
    Refines {} visitedWrites narrowSession :=
  have hcreate : create none narrowConfig .sequential .yielding ⟨{}, {}⟩ =
    .ok narrowSession.set := rfl
  have hquiet : Quiet (narrowSession.run visitedWrites).1 := by decide +kernel
  have hadmits : narrowSession.set.Admits 1 := ⟨0, rfl, by decide, by decide⟩
  ⟨hcreate, hquiet, hadmits, by decide +kernel, refines_single_copy hcreate true hquiet⟩

end SetSession

end LeftRight
