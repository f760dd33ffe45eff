import LeftRight.Proofs.Attendance

/-!
# What a toggle guarantees

A toggle that returns has outlasted every reader that arrived before its switch of versions,
wherever the readers were counted when it began. To tell a reader that stays from one that leaves
and comes again, the visits to a gate are kept in a register, and each is known by its number. In
a set nobody looks any more at the copy that the second change is made to, even if earlier writes
were given up.
-/

namespace LeftRight

/-- A visit to what lies behind a gate. -/
structure Visit where
  /-- Where the visitor is counted. -/
  place : Place
  /-- Whether the visitor has left. -/
  ended : Bool := false
  deriving DecidableEq, Repr

/-- The visits to a gate, in the order of the arrivals. -/
structure Register where
  /-- The visits, the first one first. -/
  visits : List Visit := []
  deriving DecidableEq, Repr

/-- What can be done at a gate during a pause. -/
inductive Register.Act where
  /-- A visitor arrives on a slot. -/
  | arrive (slot : Nat)
  /-- The visitor of this number leaves, unless it has left before. -/
  | leave (number : Nat)
  /-- New readers are sent to a side. -/
  | publish (side : Side)
  deriving DecidableEq, Repr

instance : Placed Visit := ⟨Visit.place⟩

/-- The visitors who have not left are inside. -/
instance : Attended Register Visit := ⟨fun r => r.visits.filter (!·.ended)⟩

namespace Register

variable {K : Type}

/-- What an act comes to. A visitor leaves from where it has been counted. -/
def act (g : Gated K Register) : Act → Gated K Register
  | .arrive slot =>
    match g.gate.indicator.arrive slot with
    | (.error _, _) => g
    | (.ok version, indicator) => { g with
        gate.indicator := indicator
        content.visits := g.content.visits ++ [{ place := (slot, version) }] }
  | .leave number =>
    match g.content.visits[number]? with
    | some ⟨(slot, version), false⟩ => { g with
        gate.indicator := (g.gate.indicator.depart slot version).2
        content.visits := g.content.visits.set number ⟨(slot, version), true⟩ }
    | _ => g
  | .publish side => g.publish side

/-- While the writer pauses, which may break off, visitors come and go, and the selector is
stored. -/
def Receiving (poll : Poll K Register) : Prop := ∀ g : Gated K Register, ∃ acts : List Act,
  (poll g).2.gate = (acts.foldl act g).gate ∧ (poll g).2.content = (acts.foldl act g).content

variable {g g₁ g' : Gated K Register} {polls : List (Poll K Register)}

/-- What an act does to the register, if it does anything to it: the visits go on with a new one,
or one of them is over. -/
theorem act_spec (g : Gated K Register) (a : Act) :
    ((act g a).gate.indicator = g.gate.indicator ∧ (act g a).content = g.content) ∨
    (∃ slot version, g.gate.indicator.arrive slot = (.ok version, (act g a).gate.indicator) ∧
      (act g a).content.visits = g.content.visits ++ [{ place := (slot, version) }]) ∨
    ∃ number slot version, g.content.visits[number]? = some ⟨(slot, version), false⟩ ∧
      (act g a).gate.indicator = (g.gate.indicator.depart slot version).2 ∧
      (act g a).content.visits = g.content.visits.set number ⟨(slot, version), true⟩ := by
  cases a with
  | arrive slot =>
    rcases harrive : g.gate.indicator.arrive slot with ⟨fault | version, indicator⟩
    · refine .inl ?_
      simp only [act, harrive, and_self]
    · refine .inr (.inl ⟨slot, version, ?_⟩)
      simp only [act, harrive, and_self]
  | leave number =>
    dsimp only [act]
    split
    · rename_i slot version hvisit
      exact .inr (.inr ⟨number, slot, version, hvisit, rfl, rfl⟩)
    · exact .inl ⟨rfl, rfl⟩
  | publish side => exact .inl ⟨rfl, rfl⟩

/-- Who leaves is no longer among those who have not left. -/
theorem perm_filter_set {visits : List Visit} {number : Nat} {visit : Visit}
    (h : visits[number]? = some visit) (hopen : visit.ended = false) :
    (visits.filter (!·.ended)).Perm
      (visit :: (visits.set number { visit with ended := true }).filter (!·.ended)) := by
  induction visits generalizing number with
  | nil => simp at h
  | cons first visits ih =>
    cases number with
    | zero =>
      obtain rfl : first = visit := by simpa using h
      simp [hopen]
    | succ number =>
      have hrest := ih (by simpa using h)
      rw [List.set_cons_succ, List.filter_cons, List.filter_cons]
      split
      · exact (hrest.cons first).trans (.swap visit first _)
      · exact hrest

theorem stirs_act (g : Gated K Register) (a : Act) : g.Stirs (act g a) := by
  rcases act_spec g a with ⟨hindicator, hcontent⟩ | ⟨slot, version, harrive, hvisits⟩ |
    ⟨number, slot, version, hvisit, hindicator, hvisits⟩
  · exact .rest hindicator (by rw [Gated.inside, hcontent]; rfl)
  · refine .arrive ⟨(slot, version), false⟩ harrive ?_
    have hinside : (act g a).inside = g.inside ++ [⟨(slot, version), false⟩] := by
      change (act g a).content.visits.filter _ = _
      rw [hvisits, List.filter_append]
      rfl
    rw [hinside]
    exact List.perm_append_singleton _ _
  · refine .leave ⟨(slot, version), false⟩ hindicator ?_
    have hinside : (act g a).inside =
        (g.content.visits.set number ⟨(slot, version), true⟩).filter (!·.ended) := by
      rw [← hvisits]
      rfl
    rw [hinside]
    exact perm_filter_set hvisit rfl

/-- What each act keeps is kept by a pause. -/
theorem Receiving.kept {poll : Poll K Register} (h : Receiving poll)
    {P : Gated K Register → Prop} (hP : Gated.Factual P) (hact : ∀ g a, P g → P (act g a))
    (hg : P g) : P (poll g).2 := by
  obtain ⟨acts, hgate, hcontent⟩ := h g
  refine hP (acts.foldl act g) _ hgate hcontent ?_
  clear hgate hcontent
  induction acts generalizing g with
  | nil => exact hg
  | cons a acts ih => exact ih (hact g a hg)

theorem Receiving.orderly {poll : Poll K Register} (h : Receiving poll) : Gated.Orderly poll := by
  intro g
  refine h.kept (P := fun g' => g.Traffic g') ?_ (fun g₁ a ht => ht.tail (stirs_act g₁ a)) .refl
  intro g₁ g₂ hgate hcontent ht
  exact ht.tail (.rest (by rw [hgate]) (by rw [Gated.inside, hcontent]; rfl))

/-- A register that goes on where another one ends: each visit of that one keeps its number and its
place, and is over if it was. -/
def Extends (r r' : Register) : Prop :=
  ∀ (number : Nat) (visit : Visit), r.visits[number]? = some visit →
    ∃ visit', r'.visits[number]? = some visit' ∧ visit'.place = visit.place ∧
      (visit.ended = true → visit'.ended = true)

variable {r r' r'' : Register}

theorem Extends.refl (r : Register) : r.Extends r := fun _ visit h => ⟨visit, h, rfl, id⟩

theorem Extends.trans (h : r.Extends r') (h' : r'.Extends r'') : r.Extends r'' := by
  intro number visit hvisit
  obtain ⟨visit', hvisit', hplace, hended⟩ := h number visit hvisit
  obtain ⟨visit'', hvisit'', hplace', hended'⟩ := h' number visit' hvisit'
  exact ⟨visit'', hvisit'', hplace'.trans hplace, hended' ∘ hended⟩

theorem Extends.length_le (h : r.Extends r') : r.visits.length ≤ r'.visits.length := by
  by_contra hlt
  rw [Nat.not_le] at hlt
  obtain ⟨visit', hvisit', -⟩ := h _ _ (List.getElem?_eq_getElem hlt)
  rw [List.getElem?_eq_none (Nat.le_refl _)] at hvisit'
  cases hvisit'

/-- Visits are never taken back, and what is over stays so. -/
theorem extends_act (g : Gated K Register) (a : Act) : g.content.Extends (act g a).content := by
  intro number visit hvisit
  have hlt : number < g.content.visits.length := (List.getElem?_eq_some_iff.mp hvisit).1
  rcases act_spec g a with ⟨-, hcontent⟩ | ⟨slot, version, -, hvisits⟩ |
    ⟨number', slot, version, hvisit', -, hvisits⟩
  · exact ⟨visit, hcontent ▸ hvisit, rfl, id⟩
  · refine ⟨visit, ?_, rfl, id⟩
    rw [hvisits, List.getElem?_append_left hlt]
    exact hvisit
  · by_cases hnumber : number' = number
    · subst hnumber
      obtain rfl := Option.some.inj (hvisit.symm.trans hvisit')
      refine ⟨⟨(slot, version), true⟩, ?_, rfl, fun _ => rfl⟩
      rw [hvisits, List.getElem?_set_self hlt]
    · refine ⟨visit, ?_, rfl, id⟩
      rw [hvisits, List.getElem?_set_ne hnumber]
      exact hvisit

theorem Receiving.extends {poll : Poll K Register} (h : Receiving poll) (g : Gated K Register) :
    g.content.Extends (poll g).2.content := by
  refine h.kept (P := fun g' => g.content.Extends g'.content) ?_
    (fun g₁ a he => he.trans (extends_act g₁ a)) (.refl _)
  intro g₁ g₂ _ hcontent he
  rwa [hcontent]

/-- A wait goes on with the register. -/
theorem extends_awaitEmpty (hpolls : ∀ poll ∈ polls, Receiving poll) (v : Version) (count : Nat)
    (g : Gated K Register) : g.content.Extends (g.awaitEmpty v polls count).2.content := by
  refine Gated.awaitEmpty_kept (P := fun g' => g.content.Extends g'.content) ?_ ?_ v count
    (.refl _)
  · intro g₁ g₂ _ hcontent h
    rwa [hcontent]
  · intro poll hp g₁ h
    exact h.trans ((hpolls poll hp).extends g₁)

/-- What a toggle has done for the visits, the state `g₁` being that at its switch of versions. -/
structure Cleared (polls : List (Poll K Register)) (g g₁ g' : Gated K Register) : Prop
    extends Gated.Returned polls g g₁ g' where
  /-- The first wait goes on with the visits at the start. -/
  before : g.content.Extends g₁.content
  /-- The second wait goes on with the visits at the switch. -/
  after : g₁.content.Extends g'.content
  /-- Every visit that had begun at the start is over. -/
  departed : ∀ visit ∈ g'.content.visits.take g.content.visits.length, visit.ended = true
  /-- All counters of the version that was current are zero. -/
  zero : ∀ slot, g'.gate.indicator.count g.gate.indicator.current slot = 0
  /-- Those who are inside have come since the switch and have not left. -/
  inside_eq : g'.inside =
    (g'.content.visits.drop g₁.content.visits.length).filter fun visit => !visit.ended
  /-- These are the ones who are counted. -/
  counted : ∀ slot v, (g'.gate.indicator.count v slot).toNat =
    (g'.content.visits.drop g₁.content.visits.length).countP fun visit =>
      visit.place = (slot, v) ∧ visit.ended = false

/-- Every visit that had begun at the switch of versions is over when the toggle returns. -/
theorem ended_of_returned (h : Gated.Returned polls g g₁ g')
    (hafter : g₁.content.Extends g'.content) :
    ∀ visit ∈ g'.content.visits.take g₁.content.visits.length, visit.ended = true := by
  intro visit hmem
  obtain ⟨number, hnumber⟩ := List.getElem?_of_mem hmem
  obtain ⟨hlt, hvisit⟩ : number < g₁.content.visits.length ∧
      g'.content.visits[number]? = some visit := by
    rw [List.getElem?_take] at hnumber
    split at hnumber
    · exact ⟨‹_›, hnumber⟩
    · cases hnumber
  obtain ⟨visit', hvisit', hplace, hended⟩ := hafter number _ (List.getElem?_eq_getElem hlt)
  obtain rfl := Option.some.inj (hvisit.symm.trans hvisit')
  by_contra hopen
  -- Whoever stays to the end is counted under the version that nobody is counted under at the
  -- switch.
  have hinside : visit ∈ g'.inside :=
    List.mem_filter.mpr ⟨List.mem_of_getElem? hvisit, by simpa using hopen⟩
  have hinside₁ : g₁.content.visits[number] ∈ g₁.inside :=
    List.mem_filter.mpr ⟨List.getElem_mem hlt, by simpa using fun h => hopen (hended h)⟩
  refine h.switched _ hinside₁ ?_
  have hversion := h.newcomers visit hinside
  have hplaced : Placed.place visit = Placed.place g₁.content.visits[number] := hplace
  rwa [hplaced] at hversion

/-- From whatever state, a toggle that returns has outlasted all visits that had begun before its
switch of versions. -/
theorem exists_cleared (haccounted : g.Accounted) (hpolls : ∀ poll ∈ polls, Receiving poll)
    (hroom : ∀ n, (g.toggle (polls.take n)).2.Uncrowded)
    (h : g.toggle polls = (.ok (), g')) : ∃ g₁, Cleared polls g g₁ g' := by
  obtain ⟨g₁, hreturned⟩ :=
    Gated.exists_returned haccounted (fun poll hp => (hpolls poll hp).orderly) hroom h
  obtain ⟨rest, rest', hsuffix, hfirst, hsecond⟩ := hreturned.waits
  have hbefore : g.content.Extends g₁.content := by
    have hextends := extends_awaitEmpty hpolls g.gate.indicator.current.other 0 g.firstWait
    rwa [hfirst] at hextends
  have hafter : g₁.content.Extends g'.content := by
    have hrest : ∀ poll ∈ rest, Receiving poll := fun poll hp => hpolls poll (hsuffix.subset hp)
    have hextends := extends_awaitEmpty hrest g.gate.indicator.current 0
      (g₁.secondWait g.gate.indicator.current.other)
    rwa [hsecond] at hextends
  have hended := ended_of_returned hreturned hafter
  have hinside : g'.inside =
      (g'.content.visits.drop g₁.content.visits.length).filter fun visit => !visit.ended := by
    change g'.content.visits.filter _ = _
    rw [← List.take_append_drop g₁.content.visits.length g'.content.visits, List.filter_append,
      List.take_append_drop, List.filter_eq_nil_iff.mpr, List.nil_append]
    intro visit hmem
    simp [hended visit hmem]
  have huncrowded : g'.Uncrowded := by
    have hlast := hroom polls.length
    rwa [List.take_length, h] at hlast
  refine ⟨g₁, { hreturned with
    before := hbefore
    after := hafter
    departed := fun visit hmem =>
      hended visit ((List.take_prefix_take_left hbefore.length_le).subset hmem)
    zero := Indicator.isEmpty_iff.mp hreturned.empty
    inside_eq := hinside
    counted := ?_ }⟩
  intro slot v
  rw [hreturned.accounted.toNat_count (huncrowded v slot), Gated.places, hinside, List.count,
    List.countP_map, List.countP_filter]
  refine List.countP_congr fun visit _ => ?_
  simp [Placed.place]

end Register

namespace TwinSet

section Visits

variable {S K : Type} {g g' : TwinSet S K}

/-- Readers that come and go leave the selector alone, and look where new readers look. -/
theorem Visited.sides (h : g.Visited g') : g'.gate.selector = g.gate.selector ∧
    ∀ r ∈ g'.content.inside, r ∈ g.content.inside ∨ r.side = g.gate.selector := by
  have henter (thread : Nat) : (TwinSet.enter thread g).2.gate.selector = g.gate.selector ∧
      ∀ r ∈ (TwinSet.enter thread g).2.content.inside,
        r ∈ g.content.inside ∨ r.side = g.gate.selector := by
    refine ⟨(undisturbed_enter thread g).selector, ?_⟩
    rcases enter_spec thread g with
      ⟨fault, g₁, henter, -, hinside⟩ | ⟨reader, g₁, henter, -, -, hside, hinside⟩
    · rw [henter, hinside]
      exact fun r hr => .inl hr
    · rw [henter, hinside]
      exact List.forall_mem_cons.mpr ⟨.inr hside, fun r hr => .inl hr⟩
  cases h with
  | enter thread => exact henter thread
  | leave => exact ⟨rfl, fun r hr => .inl (List.mem_of_mem_erase hr)⟩
  | read thread look =>
    obtain ⟨hselector, hsides⟩ := henter thread
    rcases read_spec thread look g with
      ⟨fault, g₁, hentered, hread⟩ | ⟨reader, g₁, noted, hentered, -, hread⟩ <;>
      rw [hentered] at hselector hsides <;> rw [hread]
    · exact ⟨hselector, hsides⟩
    · exact ⟨hselector, fun r hr => hsides r (List.mem_of_mem_erase hr)⟩
  | aside gate content =>
    rw [gate, content]
    exact ⟨rfl, fun r hr => .inl hr⟩

theorem Visits.sides (h : g.Visits g') : g'.gate.selector = g.gate.selector ∧
    ∀ r ∈ g'.content.inside, r ∈ g.content.inside ∨ r.side = g.gate.selector := by
  induction h with
  | refl => exact ⟨rfl, fun r hr => .inl hr⟩
  | tail _ hvisited ih =>
    obtain ⟨hselector, hsides⟩ := hvisited.sides
    refine ⟨hselector.trans ih.1, fun r hr => ?_⟩
    rcases hsides r hr with hr | hside
    · exact ih.2 r hr
    · exact .inr (hside.trans ih.1)

/-- During a wait nobody comes to look where new readers do not. -/
theorem sides_awaitEmpty {polls : List (Poll K (Twin S))} (hpolls : ∀ poll ∈ polls, Visiting poll)
    (v : Version) (count : Nat) (g : TwinSet S K) :
    let g' := (g.awaitEmpty v polls count).2
    g'.gate.selector = g.gate.selector ∧
      ∀ r ∈ g'.content.inside, r ∈ g.content.inside ∨ r.side = g.gate.selector := by
  refine Gated.awaitEmpty_kept (P := fun g' => g'.gate.selector = g.gate.selector ∧
    ∀ r ∈ g'.content.inside, r ∈ g.content.inside ∨ r.side = g.gate.selector) ?_ ?_ v count
    ⟨rfl, fun r hr => .inl hr⟩
  · intro g₁ g₂ hgate hcontent h
    rwa [hgate, hcontent]
  · intro poll hp g₁ ⟨hselector, hsides⟩
    obtain ⟨hselector', hsides'⟩ := (hpolls poll hp g₁).sides
    refine ⟨hselector'.trans hselector, fun r hr => ?_⟩
    rcases hsides' r hr with hr | hside
    · exact hsides r hr
    · exact .inr (hside.trans hselector)

/-- After a toggle that returns, everybody looks where new readers do, wherever the readers
looked when it began. -/
theorem sides_of_toggle {polls : List (Poll K (Twin S))} (haccounted : g.Accounted)
    (hpolls : ∀ poll ∈ polls, Visiting poll)
    (hroom : ∀ n, (g.toggle (polls.take n)).2.Uncrowded) (h : g.toggle polls = (.ok (), g')) :
    g'.gate.selector = g.gate.selector ∧ ∀ r ∈ g'.content.inside, r.side = g.gate.selector := by
  obtain ⟨g₁, hreturned⟩ :=
    Gated.exists_returned haccounted (fun poll hp => (hpolls poll hp).orderly) hroom h
  obtain ⟨rest, rest', hsuffix, hfirst, hsecond⟩ := hreturned.waits
  have hselector : g₁.gate.selector = g.gate.selector := by
    have hsides := sides_awaitEmpty hpolls g.gate.indicator.current.other 0 g.firstWait
    rw [hfirst] at hsides
    exact hsides.1
  have hsides := sides_awaitEmpty (fun poll hp => hpolls poll (hsuffix.subset hp))
    g.gate.indicator.current 0 (g₁.secondWait g.gate.indicator.current.other)
  rw [hsecond] at hsides
  refine ⟨hsides.1.trans hselector, fun r hr => ?_⟩
  rcases hsides.2 r hr with hold | hside
  · -- Whoever was inside at the switch is counted under the version that nobody is left under.
    exact absurd (hreturned.newcomers r hr) (hreturned.switched r hold)
  · exact hside.trans hselector

/-- A thread that is inside leaves. -/
def leaveBy (thread : Nat) (g : TwinSet S K) : TwinSet S K :=
  match g.content.inside.find? (·.thread == thread) with
  | some reader => (leave reader g).2
  | none => g

theorem visits_leaveBy (thread : Nat) (g : TwinSet S K) : g.Visits (leaveBy thread g) := by
  unfold leaveBy
  split
  · rename_i hfound
    exact .single (.leave (List.mem_of_find?_eq_some hfound))
  · exact .refl

end Visits

variable {S K : Type} [OrderedSet S K] {change : Change K} {polls : List (Poll K (Twin S))}
  {g g₀ g₂ : TwinSet S K}

/-- However a set is built and whatever has been done to it, writes that were given up included,
nobody looks at the copy to which a write makes its second change. -/
theorem replay_unobserved {detected : Option Parallelism} {config : Config} {assigner : Assigner}
    {strategy : Strategy} {copies : Copies S} {start : TwinSet S K}
    (hcreate : create detected config assigner strategy copies = .ok start)
    {deeds : List (Deed S K)} (hdeeds : ∀ deed ∈ deeds, deed.ByVisitors)
    (hpublished : Published change (follow deeds start) g₀)
    (hpolls : ∀ poll ∈ polls, Visiting poll)
    (hroom : ∀ n, (g₀.toggle (polls.take n)).2.Uncrowded)
    (hwait : g₀.toggle polls = (.ok (), g₂)) :
    let visible := (follow deeds start).gate.selector
    (write change polls (follow deeds start) =
      (afterReplay (mutate visible change g₂).1, (mutate visible change g₂).2)) ∧
    ∀ r ∈ g₂.content.inside, r.side ≠ visible := by
  have haccounted : g₀.Accounted :=
    hpublished.accounted (accounted_follow hdeeds (accounted_create hcreate))
  obtain ⟨-, hsides⟩ := sides_of_toggle haccounted hpolls hroom hwait
  refine ⟨hpublished.write_of_ok hwait, fun r hr => ?_⟩
  rw [hsides r hr, hpublished.selector_eq]
  exact Side.other_ne _

/-- Whatever the state from which it starts, a toggle that returns has outlasted all visits that
had begun before its switch of versions; and in a set of which writes were given up before, nobody
looks at the copy to which a write makes its second change. -/
theorem toggle_outlasts_visits :
    (∀ (g g' : Gated K Register) (polls : List (Poll K Register)), g.Accounted →
      (∀ poll ∈ polls, Register.Receiving poll) →
      (∀ n, (g.toggle (polls.take n)).2.Uncrowded) →
      g.toggle polls = (.ok (), g') → ∃ g₁, Register.Cleared polls g g₁ g') ∧
    ∀ (detected : Option Parallelism) (config : Config) (assigner : Assigner)
      (strategy : Strategy) (copies : Copies S) (start : TwinSet S K) (deeds : List (Deed S K))
      (change : Change K) (polls : List (Poll K (Twin S))) (g₀ g₂ : TwinSet S K),
      create detected config assigner strategy copies = .ok start →
      (∀ deed ∈ deeds, deed.ByVisitors) →
      Published change (follow deeds start) g₀ →
      (∀ poll ∈ polls, Visiting poll) →
      (∀ n, (g₀.toggle (polls.take n)).2.Uncrowded) →
      g₀.toggle polls = (.ok (), g₂) →
      let visible := (follow deeds start).gate.selector
      (write change polls (follow deeds start) =
        (afterReplay (mutate visible change g₂).1, (mutate visible change g₂).2)) ∧
      ∀ r ∈ g₂.content.inside, r.side ≠ visible :=
  ⟨fun _ _ _ haccounted hpolls hroom h => Register.exists_cleared haccounted hpolls hroom h,
    fun _ _ _ _ _ _ _ _ _ _ _ hcreate hdeeds hpublished hpolls hroom h =>
      replay_unobserved hcreate hdeeds hpublished hpolls hroom h⟩

/-- A gate that a toggle has left which broke off: a visitor is inside under either version. -/
def stragglers : Gated Nat Register where
  gate := { indicator := { slots := [⟨1, 1⟩], slots_ne_nil := by decide }, slowDrain := none }
  strategy := .yielding
  content := ⟨[⟨(0, .zero), false⟩, ⟨(0, .one), false⟩]⟩

/-- During each pause one visitor comes and one leaves; the last one leaves under the version under
which new ones do not come any more. -/
def shifts : List (Poll Nat Register) :=
  [[.arrive 0, .leave 1], [.arrive 0, .publish .right, .leave 0], [.leave 2, .leave 2]].map
    fun acts g => (.ok (), acts.foldl Register.act g)

/-- During each pause readers leave that were inside, and some come. -/
def farewells : List (Poll Nat (Twin (SortedList Nat))) := [
  fun g => (.ok (), (enter 8 (leaveBy 2 g)).2),
  fun g => (.ok (), (enter 10 (leaveBy 6 g)).2),
  fun g => (.ok (), leaveBy 8 (leaveBy 4 g))]

theorem accounted_stragglers : stragglers.Accounted where
  count_eq slot v := by rcases slot with _ | slot <;> cases v <;> rfl
  inRange := by decide

theorem receiving_shifts : ∀ poll ∈ shifts, Register.Receiving poll := by
  intro poll hpoll
  obtain ⟨acts, -, rfl⟩ := List.mem_map.mp hpoll
  exact fun g => ⟨acts, rfl, rfl⟩

theorem visiting_farewells : ∀ poll ∈ farewells, Visiting poll := by
  simp only [farewells, List.forall_mem_cons, List.not_mem_nil, false_implies, implies_true,
    and_true]
  refine ⟨fun g => ?_, fun g => ?_, fun g => ?_⟩
  · exact (visits_leaveBy 2 g).tail (.enter 8)
  · exact (visits_leaveBy 6 g).tail (.enter 10)
  · exact (visits_leaveBy 4 g).trans (visits_leaveBy 8 _)

/-- The set after two writes that were given up, and after the first change of a third one. -/
def thirdWrite : TwinSet (SortedList Nat) Nat :=
  let g := follow mixedDeeds missedSet
  (mutate g.gate.selector.other (.add 3) g).2.publish g.gate.selector.other

theorem published_thirdWrite : Published (.add 3) (follow mixedDeeds missedSet) thirdWrite :=
  published_of_effective (by decide +kernel)

/-- Both visitors have left, one has come and left, and the last one is still inside. In the set
readers were inside both copies. -/
theorem toggle_outlasts_visits_stragglers :
    (stragglers.Accounted ∧ (∀ poll ∈ shifts, Register.Receiving poll) ∧
      (∀ n, (stragglers.toggle (shifts.take n)).2.Uncrowded) ∧
      stragglers.toggle shifts = (.ok (), (stragglers.toggle shifts).2) ∧
      (stragglers.toggle shifts).2.inside = [⟨(0, .one), false⟩] ∧
      ∃ g₁, Register.Cleared shifts stragglers g₁ (stragglers.toggle shifts).2) ∧
    create none SetSession.narrowConfig (.table [0, 5]) .yielding ⟨{}, {}⟩ = .ok missedSet ∧
    (∀ deed ∈ mixedDeeds, deed.ByVisitors) ∧
    Published (.add 3) (follow mixedDeeds missedSet) thirdWrite ∧
    (∀ poll ∈ farewells, Visiting poll) ∧
    (∀ n, (thirdWrite.toggle (farewells.take n)).2.Uncrowded) ∧
    thirdWrite.toggle farewells = (.ok (), (thirdWrite.toggle farewells).2) ∧
    (thirdWrite.toggle farewells).2.content.inside = [⟨10, 0, .zero, .right⟩] ∧
    ∀ r ∈ (thirdWrite.toggle farewells).2.content.inside,
      r.side ≠ (follow mixedDeeds missedSet).gate.selector := by
  have hroom : ∀ n, (stragglers.toggle (shifts.take n)).2.Uncrowded :=
    Gated.uncrowded_toggle_take (by decide +kernel)
  have hwait : stragglers.toggle shifts = (.ok (), (stragglers.toggle shifts).2) :=
    Prod.ext (by decide +kernel) rfl
  have hroom' : ∀ n, (thirdWrite.toggle (farewells.take n)).2.Uncrowded :=
    Gated.uncrowded_toggle_take (by decide +kernel)
  have hwait' : thirdWrite.toggle farewells = (.ok (), (thirdWrite.toggle farewells).2) :=
    Prod.ext (by decide +kernel) rfl
  obtain ⟨hgate, hset⟩ := toggle_outlasts_visits (S := SortedList Nat) (K := Nat)
  refine ⟨⟨accounted_stragglers, receiving_shifts, hroom, hwait, by decide +kernel, ?_⟩,
    create_missedSet, byVisitors_mixedDeeds, published_thirdWrite, visiting_farewells, hroom',
    hwait', by decide +kernel, ?_⟩
  · exact hgate _ _ _ accounted_stragglers receiving_shifts hroom hwait
  · exact (hset _ _ _ _ _ _ _ _ _ _ _ create_missedSet byVisitors_mixedDeeds published_thirdWrite
      visiting_farewells hroom' hwait').2

end TwinSet

end LeftRight
