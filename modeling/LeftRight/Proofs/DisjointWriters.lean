import LeftRight.OrderedSet.Key
import LeftRight.Proofs.Calls
import LeftRight.Proofs.Resting
import LeftRight.Proofs.Sharding

/-!
# Writers with keys of their own

Several writers make the changes of their programs to one set, in whatever order, while readers
come and go. As long as the waits end, both copies store what the changes make of the initial
contents. So if no two writers use keys which the order does not tell apart, each is answered as if
it were alone, and the set comes to the same in every order.
-/

namespace LeftRight

open OrderedSet Std

variable {W K : Type}

/-- When nobody is counted, a toggle needs no pauses, and nobody is counted after it. -/
theorem Gated.toggle_of_isEmpty {C : Type} {g : Gated K C}
    (h : ∀ v, g.gate.indicator.isEmpty v = true) (polls : List (Poll K C)) :
    ∃ g', g.toggle polls = (.ok (), g') ∧ (∀ v, g'.gate.indicator.isEmpty v = true) ∧
      g'.gate.indicator.size = g.gate.indicator.size ∧ g'.content = g.content := by
  let emptied := g.firstWait.reportDrain g.gate.indicator.current.other 0
  let switched := emptied.secondWait g.gate.indicator.current.other
  have hindicator : switched.gate.indicator =
      g.gate.indicator.switch g.gate.indicator.current.other := by
    simp [switched, secondWait, switch, Gate.switch, emptied]
  have hcontent : switched.content = g.content := by
    simp [switched, secondWait, switch, emptied, firstWait]
  have hswitched (v : Version) : switched.gate.indicator.isEmpty v = true := by
    rw [hindicator, Indicator.isEmpty_switch]
    exact h v
  have hfirst : g.firstWait.awaitEmpty g.gate.indicator.current.other polls 0 =
      (.ok polls, emptied) := awaitEmpty_of_isEmpty (h _)
  refine ⟨_, (Toggled.both hfirst (awaitEmpty_of_isEmpty (hswitched _))).eq, ?_, ?_, ?_⟩
  · rw [reportDrain_gate]
    exact hswitched
  · rw [reportDrain_gate, hindicator, Indicator.size_switch]
  · rw [reportDrain_content, hcontent]

namespace TwinSet

variable {S : Type}

/-- The change that a deed makes, if it is a write. -/
def Deed.change? : Deed S K → Option (Change K)
  | write change _ => some change
  | others _ _ => none

/-- The calls that the writes among the deeds of several make. -/
def calls (turns : List (W × Deed S K)) : List (W × Call K) :=
  turns.filterMap fun turn => turn.2.change?.map fun change => (turn.1, .change change)

/-- The calls by which writers make the changes of their programs. -/
def asCalls (program : W → List (Change K)) (w : W) : List (Call K) := (program w).map .change

theorem calls_cons_write (w : W) (change : Change K)
    (polls : List { poll : Poll K (Twin S) // Undisturbing poll }) (turns : List (W × Deed S K)) :
    calls ((w, .write change polls) :: turns) = (w, .change change) :: calls turns := rfl

theorem calls_own (w : W) (changes : List (Change K)) :
    calls ((changes.map fun change => (.write change [] : Deed S K)).map (w, ·)) =
      alone w (changes.map .change) := by
  induction changes with
  | nil => rfl
  | cons change changes ih => exact congrArg ((w, .change change) :: ·) ih

/-- The pauses of a write let the copies alone. -/
theorem undisturbing_pauses (polls : List { poll : Poll K (Twin S) // Undisturbing poll }) :
    ∀ poll ∈ polls.map (·.val), Undisturbing poll := by
  intro poll hpoll
  obtain ⟨pause, -, rfl⟩ := List.mem_map.mp hpoll
  exact pause.property

variable [OrderedSet S K]

/-- What the writes of one writer come to, one after another. -/
def outcomesTo [DecidableEq W] (w : W) :
    List (W × Deed S K) → TwinSet S K → List (Except Fault Bool)
  | [], _ => []
  | (v, .write change polls) :: turns, g =>
    let later := outcomesTo w turns (Deed.attempt change polls g).2
    if v = w then (Deed.attempt change polls g).1 :: later else later
  | (_, .others act _) :: turns, g => outcomesTo w turns (act g)

/-- Of a writer alone all writes are its own. -/
theorem outcomesTo_own [DecidableEq W] (w : W) (deeds : List (Deed S K)) (g : TwinSet S K) :
    outcomesTo w (deeds.map (w, ·)) g = outcomes deeds g := by
  induction deeds generalizing g with
  | nil => rfl
  | cons deed deeds ih =>
    cases deed with
    | write change polls =>
      simp only [List.map_cons, outcomesTo, outcomes, if_true]
      rw [ih]
    | others act undisturbed => exact ih (act g)

/-- Whether no wait of any write among some deeds breaks off. -/
def WaitsEnd : List (Deed S K) → TwinSet S K → Prop
  | [], _ => True
  | .write change polls :: deeds, g =>
    (∀ g₀, Published change g g₀ → (g₀.toggle (polls.map (·.val))).1 = .ok ()) ∧
      WaitsEnd deeds (Deed.attempt change polls g).2
  | .others act _ :: deeds, g => WaitsEnd deeds (act g)

variable {change : Change K} {g g₀ g' : TwinSet S K}

/-- The wait of a write that returns ends. -/
theorem Published.toggle_of_returns (h : Published change g g₀) {polls : List (Poll K (Twin S))}
    {accepted : Bool} (hreturns : (write change polls g).1 = .ok accepted) :
    (g₀.toggle polls).1 = .ok () := by
  rcases hwait : g₀.toggle polls with ⟨fault | _, g₂⟩
  · rw [h.write_of_error hwait] at hreturns
    cases hreturns
  · rfl

/-- If no write unwinds, no wait breaks off. -/
theorem waitsEnd_of_outcomes {deeds : List (Deed S K)}
    (h : ∀ outcome ∈ outcomes deeds g, ∃ accepted, outcome = .ok accepted) : WaitsEnd deeds g := by
  induction deeds generalizing g with
  | nil => trivial
  | cons deed deeds ih =>
    cases deed with
    | write change polls =>
      obtain ⟨⟨accepted, hnow⟩, hlater⟩ := List.forall_mem_cons.mp h
      exact ⟨fun g₀ hpublished => hpublished.toggle_of_returns hnow, ih hlater⟩
    | others act undisturbed => exact ih h

omit [OrderedSet S K] in
/-- On a new set nobody is counted. -/
theorem isEmpty_create {detected : Option Parallelism} {config : Config} {assigner : Assigner}
    {strategy : Strategy} {copies : Copies S}
    (h : create detected config assigner strategy copies = .ok g) (v : Version) :
    g.gate.indicator.isEmpty v = true := by
  obtain ⟨-, -, -, -, hcontent, -⟩ := create_eq_ok h
  exact (Balanced.of_accounted (accounted_create h)).isEmpty (by rw [hcontent]) v

/-- When nobody is counted, no wait of a write needs a pause. -/
theorem Published.toggle_of_isEmpty (h : Published change g g₀)
    (hempty : ∀ v, g.gate.indicator.isEmpty v = true) : (g₀.toggle []).1 = .ok () := by
  rw [← h.indicator_eq] at hempty
  obtain ⟨_, hwait, -⟩ := Gated.toggle_of_isEmpty hempty []
  rw [hwait]

/-- When nobody is counted, nobody is after a write without pauses. -/
theorem write_of_isEmpty (hempty : ∀ v, g.gate.indicator.isEmpty v = true)
    (change : Change K) :
    (∀ v, (write change [] g).2.gate.indicator.isEmpty v = true) ∧
      (write change [] g).2.gate.indicator.size = g.gate.indicator.size ∧
      (write change [] g).2.content.assigner = g.content.assigner := by
  by_cases heffect : (mutate g.gate.selector.other change g).1 = .ok true
  · have hpublished := published_of_effective heffect
    have hassigner : ((mutate g.gate.selector.other change g).2.publish
      g.gate.selector.other).content.assigner = g.content.assigner := rfl
    generalize (mutate g.gate.selector.other change g).2.publish g.gate.selector.other = g₀
      at hpublished hassigner
    rw [← hpublished.indicator_eq] at hempty
    obtain ⟨g₂, hwait, hempty₂, hsize, hcontent⟩ := Gated.toggle_of_isEmpty hempty []
    rw [hpublished.indicator_eq] at hsize
    rw [hpublished.write_of_ok hwait]
    exact ⟨hempty₂, hsize, (congrArg Twin.assigner hcontent).trans hassigner⟩
  · rw [write_of_ineffective heffect]
    exact ⟨hempty, rfl, rfl⟩

/-- When nobody is counted, writes need no pauses. -/
theorem waitsEnd_of_isEmpty (hempty : ∀ v, g.gate.indicator.isEmpty v = true)
    (changes : List (Change K)) : WaitsEnd (changes.map fun change => .write change []) g := by
  induction changes generalizing g with
  | nil => trivial
  | cons change changes ih =>
    exact ⟨fun g₀ hpublished => hpublished.toggle_of_isEmpty hempty,
      ih (write_of_isEmpty hempty change).1⟩

variable [Ord K] [Storing S] {stored : K → Option K}

/-- A set of which both copies are in order and store the same. -/
structure Holds (stored : K → Option K) (g : TwinSet S K) : Prop where
  /-- The visible copy is in order. -/
  visible_valid : Storing.Valid g.visibleCopy
  /-- The hidden copy is in order. -/
  hidden_valid : Storing.Valid g.hiddenCopy
  /-- What the visible copy stores. -/
  visible_eq : Storing.stored g.visibleCopy = stored
  /-- What the hidden copy stores. -/
  hidden_eq : Storing.stored g.hiddenCopy = stored

theorem Holds.undisturbed (h : g.Holds stored) (hundisturbed : g.Undisturbed g') :
    g'.Holds stored := by
  obtain ⟨hvisible, hhidden, hshown, hkept⟩ := h
  rw [← hundisturbed.visibleCopy] at hvisible hshown
  rw [← hundisturbed.hiddenCopy] at hhidden hkept
  exact ⟨hvisible, hhidden, hshown, hkept⟩

theorem Holds.sameKeys (h : g.Holds stored) : g.SameKeys :=
  Storing.toList_eq h.visible_valid h.hidden_valid (h.visible_eq.trans h.hidden_eq.symm)

/-- For keys which the order does not tell apart the same is stored. -/
theorem Holds.stored_congr (h : g.Holds stored) {j k : K} (hjk : compare j k = .eq) :
    stored j = stored k := by
  rw [← h.visible_eq]
  exact Storing.stored_congr hjk

/-- The first change says of that which is stored whether it has an effect. -/
theorem Holds.mutate_fst (h : g.Holds stored) (change : Change K) :
    (mutate g.gate.selector.other change g).1 = .ok (change.takes (stored change.key)) := by
  rw [← h.hidden_eq]
  exact Storing.answer_apply change h.hidden_valid

/-- A write of which no wait breaks off returns what its change says of that which is stored. -/
theorem Holds.attempt_fst (h : g.Holds stored)
    {polls : List { poll : Poll K (Twin S) // Undisturbing poll }}
    (hwaits : ∀ g₀, Published change g g₀ → (g₀.toggle (polls.map (·.val))).1 = .ok ()) :
    (Deed.attempt change polls g).1 = .ok (change.takes (stored change.key)) := by
  have hfirst := h.mutate_fst change
  have hproceeds := proceeds_write change (polls.map (·.val)) g
  rw [Deed.attempt]
  generalize write change (polls.map (·.val)) g = result at hproceeds ⊢
  cases hproceeds with
  | ineffective => exact hfirst
  | interrupted published broken =>
    have hends := hwaits _ published
    rw [broken] at hends
    cases hends
  | @replayed g₀ g₂ published waited =>
    -- The second change finds the same as the first.
    have hsecond : (mutate g.gate.selector change g₂).1 =
        .ok (change.takes (stored change.key)) := by
      rw [published.apply_of_toggle (undisturbing_pauses polls) waited,
        Storing.answer_apply change h.visible_valid, h.visible_eq]
    rw [hsecond, ← hfirst, published.mutate_fst]
    rfl

/-- After a write of which no wait breaks off both copies store what its change makes of that which
they stored. -/
theorem Holds.attempt (h : g.Holds stored)
    {polls : List { poll : Poll K (Twin S) // Undisturbing poll }}
    (hwaits : ∀ g₀, Published change g g₀ → (g₀.toggle (polls.map (·.val))).1 = .ok ()) :
    (Deed.attempt change polls g).2.Holds (change.on stored) := by
  have hwrote := Deed.wrote_attempt change polls g
  rw [h.attempt_fst hwaits] at hwrote
  generalize (Deed.attempt change polls g).2 = g' at hwrote
  generalize houtcome : Except.ok (change.takes (stored change.key)) = outcome at hwrote
  have hhidden_valid := Storing.valid_apply change h.hidden_valid
  have hhidden_eq := Storing.stored_apply change h.hidden_valid
  have hvisible_valid := Storing.valid_apply change h.visible_valid
  have hvisible_eq := Storing.stored_apply change h.visible_valid
  rw [h.hidden_eq] at hhidden_eq
  rw [h.visible_eq] at hvisible_eq
  cases hwrote with
  | refused applied ineffective selector visible =>
    rw [applied] at hhidden_valid hhidden_eq
    have hkept : change.on stored = stored := by
      refine Change.on_of_not_takes h.stored_congr ?_
      subst houtcome
      exact Bool.not_eq_true _ |>.mp fun htakes => ineffective (congrArg Except.ok htakes)
    exact ⟨visible ▸ h.visible_valid, hhidden_valid, by rw [visible, h.visible_eq, hkept],
      hhidden_eq⟩
  | interrupted => cases houtcome
  | replayed applied replayed =>
    rw [applied] at hhidden_valid hhidden_eq
    rw [replayed] at hvisible_valid hvisible_eq
    exact ⟨hhidden_valid, hvisible_valid, hhidden_eq, hvisible_eq⟩

/-- Deeds of which no wait breaks off come to what is told of that which is stored. -/
theorem Holds.outcomesTo [DecidableEq W] {turns : List (W × Deed S K)} (h : g.Holds stored)
    (hwaits : WaitsEnd (turns.map Prod.snd) g) (w : W) :
    outcomesTo w turns g = (told w (calls turns) stored).map .ok := by
  induction turns generalizing g stored with
  | nil => rfl
  | cons turn turns ih =>
    obtain ⟨v, deed⟩ := turn
    cases deed with
    | write change polls =>
      obtain ⟨hnow, hlater⟩ := hwaits
      have hrest := ih (h.attempt hnow) hlater
      by_cases hv : v = w
      · simp only [TwinSet.outcomesTo, calls_cons_write, told, if_pos hv, List.map_cons,
          h.attempt_fst hnow, hrest]
        rfl
      · simp only [TwinSet.outcomesTo, calls_cons_write, told, if_neg hv, hrest]
        rfl
    | others act undisturbed => exact ih (h.undisturbed (undisturbed g)) hwaits

/-- After deeds of which no wait breaks off both copies store what the calls among them make of that
which they stored. -/
theorem Holds.follow {turns : List (W × Deed S K)} (h : g.Holds stored)
    (hwaits : WaitsEnd (turns.map Prod.snd) g) :
    (follow (turns.map Prod.snd) g).Holds (storedAfter (calls turns) stored) := by
  induction turns generalizing g stored with
  | nil => exact h
  | cons turn turns ih =>
    obtain ⟨v, deed⟩ := turn
    cases deed with
    | write change polls => exact ih (h.attempt hwaits.1) hwaits.2
    | others act undisturbed => exact ih (h.undisturbed (undisturbed g)) hwaits

/-- Both copies store what the only one does of which they are. -/
theorem holds_of_copies {s : S} (hvalid : Storing.Valid s) (hcopies : g.content.copies = ⟨s, s⟩) :
    g.Holds (Storing.stored s) := by
  obtain ⟨hvisible, hhidden⟩ := copies_eq_iff.mp hcopies
  refine ⟨?_, ?_, ?_, ?_⟩ <;> simp only [hvisible, hhidden, hvalid]

/-- What the writers of some turns have to do with each other, if the set starts with these
contents: nothing. -/
structure Independent [DecidableEq W] (program : W → List (Change K)) (s : S)
    (turns : List (W × Deed S K)) (g : TwinSet S K) : Prop where
  /-- Each call returns. -/
  returns : ∀ w, ∀ outcome ∈ outcomesTo w turns g, ∃ accepted, outcome = .ok accepted
  /-- Each writer is told what it is told when it makes its calls on a new set with the same
  contents, and nobody else is there. -/
  alone : ∀ {detected : Option Parallelism} {config : Config} {assigner : Assigner}
    {strategy : Strategy} {fresh : TwinSet S K},
    create detected config assigner strategy ⟨s, s⟩ = .ok fresh → ∀ w,
    outcomesTo w turns g =
      outcomes ((program w).map fun change => .write change []) fresh
  /-- The set lists the same in the end if the calls are made in another order. -/
  order : ∀ {g' : TwinSet S K} {turns' : List (W × Deed S K)}, g'.content.copies = ⟨s, s⟩ →
    Follows (asCalls program) (calls turns') → WaitsEnd (turns'.map Prod.snd) g' →
    (TwinSet.follow (turns'.map Prod.snd) g').visibleKeys =
      (TwinSet.follow (turns.map Prod.snd) g).visibleKeys
  /-- In the end both copies list the same. -/
  both : (TwinSet.follow (turns.map Prod.snd) g).SameKeys

/-- Writers with programs that are apart are independent. -/
theorem independent_of_apart [DecidableEq W] [TransOrd K] {program : W → List (Change K)}
    {turns : List (W × Deed S K)} (hfollows : Follows (asCalls program) (calls turns))
    (hapart : Apart (asCalls program)) {s : S} (hvalid : Storing.Valid s)
    (hcopies : g.content.copies = ⟨s, s⟩) (hwaits : WaitsEnd (turns.map Prod.snd) g) :
    Independent program s turns g := by
  have hholds := holds_of_copies hvalid hcopies
  refine ⟨fun w outcome houtcome => ?_, @fun _ _ _ _ fresh hcreate w => ?_,
    fun hcopies' hfollows' hwaits' => ?_,
    (hholds.follow hwaits).sameKeys⟩
  · rw [hholds.outcomesTo hwaits w] at houtcome
    obtain ⟨accepted, -, rfl⟩ := List.mem_map.mp houtcome
    exact ⟨accepted, rfl⟩
  · let deeds : List (Deed S K) := (program w).map fun change => .write change []
    obtain ⟨-, -, -, -, hcontent, -⟩ := create_eq_ok hcreate
    have hlone : WaitsEnd ((deeds.map (w, ·)).map Prod.snd) fresh := by
      rw [List.map_map]
      change WaitsEnd (deeds.map id) fresh
      rw [List.map_id]
      exact waitsEnd_of_isEmpty (isEmpty_create hcreate) (program w)
    have hfresh := holds_of_copies hvalid (congrArg Twin.copies hcontent)
    rw [hholds.outcomesTo hwaits w, hfollows.told_eq hapart, ← outcomesTo_own w deeds,
      hfresh.outcomesTo hlone w, calls_own, asCalls]
  · have hend := hholds.follow hwaits
    have hend' := (holds_of_copies hvalid hcopies').follow hwaits'
    rw [hfollows'.storedAfter_eq hfollows hapart] at hend'
    exact Storing.toList_eq hend'.visible_valid hend.visible_valid
      (hend'.visible_eq.trans hend.visible_eq.symm)

/-- Several writers make the calls of their programs on a set of sorted lists or of search trees, in
whatever order, while readers come and go. If no two programs are about the same key and no wait
breaks off, each call returns what it returns when its writer is alone, the set lists the same keys
in the end whatever the order was, and so do both its copies. -/
theorem disjoint_writers_independent [DecidableEq W] [TransOrd K]
    {program : W → List (Change K)} (hapart : Apart (asCalls program)) :
    (∀ {s : SortedList K} {g : TwinSet (SortedList K) K}
      {turns : List (W × Deed (SortedList K) K)}, SortedList.Ascending s.keys →
      g.content.copies = ⟨s, s⟩ → Follows (asCalls program) (calls turns) →
      WaitsEnd (turns.map Prod.snd) g → Independent program s turns g) ∧
    (∀ {s : SearchTree K} {g : TwinSet (SearchTree K) K}
      {turns : List (W × Deed (SearchTree K) K)},
      g.content.copies = ⟨s, s⟩ → Follows (asCalls program) (calls turns) →
      WaitsEnd (turns.map Prod.snd) g → Independent program s turns g) :=
  ⟨fun hascending hcopies hfollows => independent_of_apart hfollows hapart hascending hcopies,
    fun hcopies hfollows => independent_of_apart hfollows hapart trivial hcopies⟩

/-- Two writers with tagged numbers. One of them replaces the key that the set holds at first by
another one that counts as the same. -/
def taggedPrograms : Bool → List (Change TaggedKey)
  | true => [.add ⟨1, "a"⟩, .add ⟨1, "b"⟩, .remove ⟨1, "c"⟩, .add ⟨1, "d"⟩]
  | false => [.remove ⟨2, "e"⟩, .add ⟨2, "f"⟩]

/-- The writers take turns. A reader that comes first leaves while a write waits. -/
def taggedTurns {S : Type} : List (Bool × Deed S TaggedKey) := [
  (true, .others (fun g => (enter 5 g).2) (undisturbed_enter 5)),
  (true, .write (.add ⟨1, "a"⟩) [⟨fun g => (.ok (), leaveBy 5 g), undisturbed_leaveBy 5⟩]),
  (false, .write (.remove ⟨2, "e"⟩) []),
  (true, .write (.add ⟨1, "b"⟩) []),
  (true, .write (.remove ⟨1, "c"⟩) []),
  (false, .write (.add ⟨2, "f"⟩) []),
  (true, .write (.add ⟨1, "d"⟩) [])]

theorem single_slot_ne_nil : [({} : Slot)] ≠ [] := List.cons_ne_nil _ _

/-- A set of tagged numbers with one slot. -/
def taggedSet {S : Type} (s : S) : TwinSet S TaggedKey where
  gate := {
    indicator := { slots := [{}], slots_ne_nil := single_slot_ne_nil }
    slowDrain := none }
  strategy := .yielding
  content := { copies := ⟨s, s⟩, assigner := .sequential }
  events := []

instance : TransOrd TaggedKey := inferInstanceAs (TransCmp (compareOn TaggedKey.number))

/-- The list and the tree come to the same, down to the tags. -/
theorem disjoint_writers_independent_tagged :
    let s : SortedList TaggedKey := ⟨[⟨2, "z"⟩]⟩
    let t : SearchTree TaggedKey := .ofList [⟨2, "z"⟩]
    Apart (asCalls taggedPrograms) ∧ Independent taggedPrograms s taggedTurns (taggedSet s) ∧
    Independent taggedPrograms t taggedTurns (taggedSet t) ∧
    outcomesTo true taggedTurns (taggedSet s) = [.ok true, .ok false, .ok true, .ok true] ∧
    outcomesTo true taggedTurns (taggedSet t) = [.ok true, .ok false, .ok true, .ok true] ∧
    (follow (taggedTurns.map Prod.snd) (taggedSet s)).visibleKeys.map (·.tag) = ["d", "f"] ∧
    (follow (taggedTurns.map Prod.snd) (taggedSet t)).visibleKeys.map (·.tag) = ["d", "f"] := by
  intro s t
  have hapart : Apart (asCalls taggedPrograms) := by
    unfold Apart
    decide
  have hfollows {S : Type} : Follows (asCalls taggedPrograms) (calls (taggedTurns (S := S))) := by
    rintro (_ | _) <;> rfl
  have houtcomes : ∀ outcome ∈ outcomes (taggedTurns.map Prod.snd) (taggedSet s),
    ∃ accepted, outcome = .ok accepted := by decide +kernel
  have houtcomes' : ∀ outcome ∈ outcomes (taggedTurns.map Prod.snd) (taggedSet t),
    ∃ accepted, outcome = .ok accepted := by decide +kernel
  refine ⟨hapart, ?_, ?_, ?_, ?_, ?_, ?_⟩
  · exact (disjoint_writers_independent hapart).1 (List.pairwise_singleton ..) rfl hfollows
      (waitsEnd_of_outcomes houtcomes)
  · exact (disjoint_writers_independent hapart).2 rfl hfollows (waitsEnd_of_outcomes houtcomes')
  all_goals decide +kernel

end TwinSet

end LeftRight
