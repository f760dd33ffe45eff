import LeftRight.Proofs.DisjointWriters

/-!
# Refused writes

A write is refused by the hidden copy, which no reader sees. As long as no write unwinds both copies
store the same, so that it is refused exactly if new readers see it to be idle. A refused write asks
the hidden copy once and does nothing else: it publishes nothing, and waits for nobody. A write that
is taken turns the answer for its key, and no other answer.
-/

namespace LeftRight

open OrderedSet Std

variable {K : Type}

theorem Copies.set_get {S : Type} (side : Side) (c : Copies S) : c.set side (c.get side) = c := by
  cases side <;> rfl

/-- A change that has an effect turns whether a key is stored which it is about, and no other. -/
theorem Change.isSome_on [Ord K] {change : Change K} {stored : K → Option K}
    (hcongr : ∀ {j k}, compare j k = .eq → stored j = stored k)
    (h : change.takes (stored change.key) = true) (k : K) :
    (change.on stored k).isSome =
      if change.Touches k then !(stored k).isSome else (stored k).isSome := by
  by_cases htouches : change.Touches k
  · rw [hcongr htouches] at h
    rw [on, if_pos htouches, if_pos htouches]
    cases change with
    | add key =>
      rw [Option.isNone_iff_eq_none.mp h]
      rfl
    | remove key =>
      rw [show (stored k).isSome = true from h]
      rfl
  · rw [on_of_not_touches htouches, if_neg htouches]

namespace TwinSet

variable {S : Type} [OrderedSet S K] {change : Change K} {g g' : TwinSet S K}

/-- Whether a reader who starts now is told this of a key. -/
structure Finds (k : K) (present : Bool) (g : TwinSet S K) : Prop where
  /-- So says the copy at which new readers look. -/
  visible : OrderedSet.contains k g.visibleCopy = present
  /-- So says a lookup, whichever thread makes it, if it is let in and out again. -/
  told : ∀ thread, g.Admits thread → (TwinSet.contains thread k g).1 = .ok present

/-- Who looks a key up is told what the visible copy says. -/
theorem finds_iff {k : K} {present : Bool} :
    g.Finds k present ↔ OrderedSet.contains k g.visibleCopy = present := by
  refine ⟨Finds.visible, fun h => ⟨h, fun thread hadmits => ?_⟩⟩
  rw [TwinSet.contains, read_of_admits hadmits, h]

/-- A write is refused exactly if its first change is, whatever happens at its pauses. -/
theorem write_refused_iff {polls : List (Poll K (Twin S))} :
    (write change polls g).1 = .ok false ↔
      (mutate g.gate.selector.other change g).1 = .ok false := by
  have hproceeds := proceeds_write change polls g
  generalize write change polls g = result at hproceeds ⊢
  cases hproceeds with
  | ineffective => rfl
  | interrupted published =>
    exact iff_of_false (by simp) (by simp [published.mutate_fst])
  | replayed published =>
    -- What is published is not refused any more: a second change without effect is a fault.
    refine iff_of_false (fun hrefused => ?_) (by simp [published.mutate_fst])
    cases eq_true_of_afterReplay hrefused

/-- A refused write leaves everything as it was, and notes that it has asked the hidden copy. -/
theorem write_snd_of_refused [Lawful S] {polls : List (Poll K (Twin S))}
    (h : (write change polls g).1 = .ok false) :
    (write change polls g).2 =
      g.record (.changed change g.gate.selector.other (some false)) := by
  rw [write_refused_iff] at h
  have hineffective : (mutate g.gate.selector.other change g).1 ≠ .ok true := by simp [h]
  rw [write_of_ineffective hineffective]
  rcases happlied : apply change (g.content.copies.get g.gate.selector.other) with ⟨outcome, copy⟩
  obtain rfl : outcome = .ok false := by rwa [mutate, happlied] at h
  obtain rfl := Lawful.unchanged happlied
  simp only [mutate, happlied, Copies.set_get]
  rfl

variable [Ord K]

/-- A set which decides about a change as its new readers would. -/
structure Decides (g : TwinSet S K) : Prop where
  /-- A key is not added exactly if a reader who starts now finds an equal one. -/
  add_refused_iff : ∀ (k : K) (polls : List (Poll K (Twin S))),
    (write (.add k) polls g).1 = .ok false ↔ g.Finds k true
  /-- A key is not removed exactly if a reader who starts now finds no equal one. -/
  remove_refused_iff : ∀ (k : K) (polls : List (Poll K (Twin S))),
    (write (.remove k) polls g).1 = .ok false ↔ g.Finds k false
  /-- A refused write leaves both copies, the gate with its counters, those inside and the strategy
  as they were. Nothing is noted but the first change, so the strategy was not called. -/
  refused : ∀ (change : Change K) (polls : List (Poll K (Twin S))),
    (write change polls g).1 = .ok false → (write change polls g).2 =
      g.record (.changed change g.gate.selector.other (some false))
  /-- After a write that was taken, and whatever readers have come and gone since, a reader is told
  the opposite of the key of the write, and the same of any other key. -/
  taken : ∀ (change : Change K) (polls : List { poll : Poll K (Twin S) // Undisturbing poll })
    (g' : TwinSet S K), (Deed.attempt change polls g).1 = .ok true →
    (Deed.attempt change polls g).2.Undisturbed g' → ∀ (k : K) (present : Bool),
    g.Finds k present → g'.Finds k (if change.Touches k then !present else present)

variable [Storing S] {stored : K → Option K}

/-- A reader is told whether a key is stored. -/
theorem Holds.finds_iff (h : g.Holds stored) {k : K} {present : Bool} :
    g.Finds k present ↔ (stored k).isSome = present := by
  rw [TwinSet.finds_iff, Storing.contains_eq, h.visible_eq]

/-- A write is refused exactly if what is stored for its key gives it nothing to do. -/
theorem Holds.write_refused_iff (h : g.Holds stored) {polls : List (Poll K (Twin S))} :
    (write change polls g).1 = .ok false ↔ change.takes (stored change.key) = false := by
  rw [TwinSet.write_refused_iff, h.mutate_fst, Except.ok.injEq]

/-- A set of which both copies store the same decides as its new readers would. -/
theorem Holds.decides [Lawful S] (h : g.Holds stored) : g.Decides where
  add_refused_iff k polls := by
    rw [h.write_refused_iff, h.finds_iff, Change.takes, Change.key, Option.isNone_eq_false_iff]
  remove_refused_iff k polls := by
    rw [h.write_refused_iff, h.finds_iff, Change.takes, Change.key]
  refused change polls hrefused := write_snd_of_refused hrefused
  taken change polls g' htaken hlater k present hfinds := by
    have hwaits : ∀ g₀, Published change g g₀ → (g₀.toggle (polls.map (·.val))).1 = .ok () :=
      fun g₀ hpublished => hpublished.toggle_of_returns htaken
    have heffect : change.takes (stored change.key) = true := by
      rw [h.attempt_fst hwaits] at htaken
      exact Except.ok.inj htaken
    have hafter : g'.Holds (change.on stored) := (h.attempt hwaits).undisturbed hlater
    rw [hafter.finds_iff, Change.isSome_on h.stored_congr heffect, h.finds_iff.mp hfinds]

/-- After deeds of which no write unwinds both copies store the same, if they did at first. -/
theorem Holds.exists_follow {deeds : List (Deed S K)} (h : g.Holds stored)
    (hreturns : ∀ outcome ∈ outcomes deeds g, ∃ accepted, outcome = .ok accepted) :
    ∃ stored', (TwinSet.follow deeds g).Holds stored' := by
  have hdeeds : (deeds.map ((), ·)).map Prod.snd = deeds := by
    rw [List.map_map]
    exact List.map_id _
  have hwaits : WaitsEnd ((deeds.map ((), ·)).map Prod.snd) g := by
    rw [hdeeds]
    exact waitsEnd_of_outcomes hreturns
  have hend := h.follow hwaits
  rw [hdeeds] at hend
  exact ⟨_, hend⟩

/-- However an empty set is built of sorted lists or of search trees, and whatever readers have come
and stayed: as long as no write has unwound, a write is refused exactly if a new reader would find
it idle, and then has neither changed anything nor waited; if it is taken, it turns what readers are
told of its key, and nothing else. -/
theorem writes_decide [TransOrd K] {detected : Option Parallelism} {config : Config}
    {assigner : Assigner} {strategy : Strategy} :
    (∀ {g : TwinSet (SortedList K) K} {deeds : List (Deed (SortedList K) K)},
      create detected config assigner strategy ⟨OrderedSet.empty, OrderedSet.empty⟩ = .ok g →
      (∀ outcome ∈ outcomes deeds g, ∃ accepted, outcome = .ok accepted) →
      (follow deeds g).Decides) ∧
    (∀ {g : TwinSet (SearchTree K) K} {deeds : List (Deed (SearchTree K) K)},
      create detected config assigner strategy ⟨OrderedSet.empty, OrderedSet.empty⟩ = .ok g →
      (∀ outcome ∈ outcomes deeds g, ∃ accepted, outcome = .ok accepted) →
      (follow deeds g).Decides) := by
  constructor
  · intro g deeds hcreate hreturns
    obtain ⟨-, -, -, -, hcontent, -⟩ := create_eq_ok hcreate
    have hholds := holds_of_copies (s := (OrderedSet.empty : SortedList K)) List.Pairwise.nil
      (congrArg Twin.copies hcontent)
    obtain ⟨stored, hend⟩ := hholds.exists_follow hreturns
    exact hend.decides
  · intro g deeds hcreate hreturns
    obtain ⟨-, -, -, -, hcontent, -⟩ := create_eq_ok hcreate
    have hholds := holds_of_copies (s := (OrderedSet.empty : SearchTree K)) trivial
      (congrArg Twin.copies hcontent)
    obtain ⟨stored, hend⟩ := hholds.exists_follow hreturns
    exact hend.decides

/-- A new set of tagged numbers with one slot. -/
def newTagged {S : Type} (s : S) : TwinSet S TaggedKey :=
  { taggedSet s with events := [.configured SetSession.narrowConfig .yielding, .created 1 1] }

/-- One reader has come and gone, and another one has come and stays. -/
def heldTagged {S : Type} : List (Deed S TaggedKey) := [
  .others (fun g => (enter 7 g).2) (undisturbed_enter 7),
  .write (.add ⟨1, "a"⟩) [⟨fun g => (.ok (), (enter 6 (leaveBy 7 g)).2),
    fun g => (undisturbed_leaveBy 7 g).trans (undisturbed_enter 6 _)⟩]]

/-- A number is there under another tag, and one is not there; so nothing waits for the reader. -/
theorem writes_decide_tagged :
    let s := newTagged ({} : SortedList TaggedKey)
    let t := newTagged ({} : SearchTree TaggedKey)
    create none SetSession.narrowConfig .sequential .yielding ⟨{}, {}⟩ = .ok s ∧
    create none SetSession.narrowConfig .sequential .yielding ⟨{}, {}⟩ = .ok t ∧
    outcomes heldTagged s = [.ok true] ∧ outcomes heldTagged t = [.ok true] ∧
    (follow heldTagged s).content.inside = [⟨6, 0, .one, .right⟩] ∧
    (follow heldTagged t).content.inside = [⟨6, 0, .one, .right⟩] ∧
    (follow heldTagged s).Decides ∧ (follow heldTagged t).Decides ∧
    (write (.add ⟨1, "b"⟩) [] (follow heldTagged s)).1 = .ok false ∧
    (write (.add ⟨1, "b"⟩) [] (follow heldTagged t)).1 = .ok false ∧
    (write (.remove ⟨2, "c"⟩) [] (follow heldTagged s)).1 = .ok false ∧
    (write (.remove ⟨2, "c"⟩) [] (follow heldTagged t)).1 = .ok false := by
  intro s t
  have hcreate : create none SetSession.narrowConfig .sequential .yielding
    ⟨OrderedSet.empty, OrderedSet.empty⟩ = .ok s := rfl
  have hcreate' : create none SetSession.narrowConfig .sequential .yielding
    ⟨OrderedSet.empty, OrderedSet.empty⟩ = .ok t := rfl
  have hs : outcomes heldTagged s = [.ok true] := by decide +kernel
  have ht : outcomes heldTagged t = [.ok true] := by decide +kernel
  have hreturns : ∀ outcome ∈ [(.ok true : Except Fault Bool)],
    ∃ accepted, outcome = .ok accepted := by simp
  refine ⟨hcreate, hcreate', hs, ht, ?_, ?_, writes_decide.1 hcreate (hs ▸ hreturns),
    writes_decide.2 hcreate' (ht ▸ hreturns), ?_, ?_, ?_, ?_⟩
  all_goals decide +kernel

end TwinSet

end LeftRight
