import LeftRight.Proofs.Alike
import LeftRight.Proofs.Toggling
import LeftRight.Session.Gate

/-!
# Gates with visitors on other slots

A gate whose visitors are spread over more slots or fewer, in one way or another, goes as any other:
visitors arrive under the same versions, all can leave, scans and toggles come to the same. The
visitors are kept in a register, by which each gives back the place that it was given.
-/

namespace LeftRight

namespace Register

open Gated

variable {K : Type}

/-- What is asked of a gate that keeps a register. -/
inductive Request where
  /-- The next visitor arrives. -/
  | arrive
  /-- The visitor of this number leaves. -/
  | leave (number : Nat)
  /-- Ask whether nobody is counted under a version. -/
  | isEmpty (version : Version)
  /-- Ask how many are counted under a version. -/
  | readers (version : Version)
  /-- Send new readers to a side. -/
  | publish (side : Side)
  /-- Ask for the inspection text. -/
  | inspection (pretty : Bool)
  /-- Ask for what can be seen of the gate. -/
  | view
  deriving DecidableEq, Repr

/-- What a request comes to, where the visitor of each number is given the slot that `spread` says.
The gate is asked for the answer. -/
def perform (spread : Nat → Nat) (request : Request) (g : Gated K Register) :
    Answer K × Gated K Register :=
  let ask (request : GateRequest) : Answer K := (g.gate.perform request).1
  match request with
  | .arrive =>
    let slot := spread g.content.visits.length
    (ask (.indicator (.arrive slot)), act g (.arrive slot))
  | .leave number =>
    match g.content.visits[number]? with
    | some ⟨(slot, version), false⟩ =>
      (ask (.indicator (.depart slot version)), act g (.leave number))
    | _ => (.notInside, g)
  | .isEmpty version => (ask (.indicator (.isEmpty version)), g)
  | .readers version => (ask (.indicator (.readers version)), g)
  | .publish side => (ask (.publish side), act g (.publish side))
  | .inspection pretty => (ask (.inspection pretty), g)
  | .view => (ask .view, g)

/-- Those who use a gate that keeps a register. Nobody can be let go. -/
def company (spread : Nat → Nat) : Company Request K Register where
  perform := perform spread
  release g := ([], g)

/-- A step of a session with a gate that keeps a register. -/
inductive Step where
  /-- A request. -/
  | ask (request : Request)
  /-- A switch of versions, during which others follow a script. -/
  | toggle (script : Script Request)
  deriving Repr

/-- What a step comes to. -/
def performStep (spread : Nat → Nat) (step : Step) (g : Gated K Register) :
    Answer K × Gated K Register :=
  match step with
  | .ask request => perform spread request g
  | .toggle script =>
    let (outcome, g) := g.toggle ((company spread).polls script)
    (.ofOutcome (fun () => .done) outcome, g)

/-- A session with a gate that keeps a register. -/
def session (spread : Nat → Nat) (steps : List Step) (g : Gated K Register) :
    List (Answer K × List (Event K)) × Gated K Register :=
  transcript (performStep spread) Gated.takeEvents steps g

/-- What there is to know of a visit apart from its slot. -/
def unslotted (visit : Visit) : Version × Bool := (visit.place.2, visit.ended)

/-- Two registers of which the visits differ in their slots only. -/
def Alike (r₁ r₂ : Register) : Prop := r₁.visits.map unslotted = r₂.visits.map unslotted

/-- Whether there is room for the visitor who arrives for a request. -/
def RoomFor (spread : Nat → Nat) (request : Request) (g : Gated K Register) : Prop :=
  request = .arrive → Roomy (act g (.arrive (spread g.content.visits.length)))

instance (spread : Nat → Nat) (request : Request) (g : Gated K Register) :
    Decidable (RoomFor spread request g) :=
  inferInstanceAs (Decidable (request = .arrive → _))

/-- Whether there is room for all who arrive in a step. -/
def FitsStep (spread : Nat → Nat) : Step → Gated K Register → Prop
  | .ask request, g => RoomFor spread request g
  | .toggle script, g =>
    (company spread).FitsDuring (RoomFor spread) script fun polls => g.toggle polls

variable {t : Terms} {spread₁ spread₂ : Nat → Nat} {g g₁ g₂ : Gated K Register}

theorem Alike.length_eq {r₁ r₂ : Register} (h : r₁.Alike r₂) :
    r₁.visits.length = r₂.visits.length := by
  have hlength := congrArg List.length h
  rwa [List.length_map, List.length_map] at hlength

theorem versions_of_visits (h : g₁.content.Alike g₂.content) : g₁.versions = g₂.versions := by
  have hopen (r : Register) : ((r.visits.filter (!·.ended)).map fun visit => visit.place.2) =
      ((r.visits.map unslotted).filter (!·.2)).map (·.1) := by
    rw [List.filter_map, List.map_map]
    rfl
  rw [versions_eq_map, versions_eq_map]
  exact (hopen g₁.content).trans (h ▸ (hopen g₂.content).symm)

theorem act_arrive {slot : Nat} (hlt : slot < g.gate.indicator.size) :
    act g (.arrive slot) = { g with
      gate.indicator := g.gate.indicator.adjust slot g.gate.indicator.current (· + 1)
      content.visits := g.content.visits ++ [{ place := (slot, g.gate.indicator.current) }] } := by
  have harrive := Indicator.arrive_eq_ok_iff.mpr ⟨hlt, Eq.refl g.gate.indicator.current, rfl⟩
  simp only [act, harrive]

/-- The next visitor of both gates arrives under the same version. -/
theorem Alike.arrive (h : g₁.Alike t Register.Alike g₂) (hrange₁ : ∀ n, spread₁ n < t.slots₁)
    (hrange₂ : ∀ n, spread₂ n < t.slots₂) (hroom : RoomFor spread₁ .arrive g₁) :
    (perform spread₁ .arrive g₁).1.Alike t (perform spread₂ .arrive g₂).1 ∧
      (perform spread₁ .arrive g₁).2.Alike t Register.Alike (perform spread₂ .arrive g₂).2 := by
  have hlt₁ : spread₁ g₁.content.visits.length < g₁.gate.indicator.size := h.size₁ ▸ hrange₁ _
  have hlt₂ : spread₂ g₂.content.visits.length < g₂.gate.indicator.size := h.size₂ ▸ hrange₂ _
  have harrive₁ := Indicator.arrive_eq_ok_iff.mpr ⟨hlt₁, Eq.refl g₁.gate.indicator.current, rfl⟩
  have harrive₂ := Indicator.arrive_eq_ok_iff.mpr ⟨hlt₂, Eq.refl g₂.gate.indicator.current, rfl⟩
  have hact₁ := act_arrive hlt₁
  have hact₂ := act_arrive hlt₂
  have hvisits : (act g₁ (.arrive (spread₁ g₁.content.visits.length))).content.Alike
      (act g₂ (.arrive (spread₂ g₂.content.visits.length))).content := by
    rw [hact₁, hact₂]
    unfold Register.Alike
    rw [List.map_append, List.map_append, h.content, List.map_singleton, List.map_singleton,
      unslotted, unslotted, h.current]
  have hroom₁ := hroom rfl
  have hversions := versions_of_visits hvisits
  have hserves₁ := (stirs_act g₁ (.arrive (spread₁ g₁.content.visits.length))).accounted
    h.serves₁.accounted
  have hserves₂ := (stirs_act g₂ (.arrive (spread₂ g₂.content.visits.length))).accounted
    h.serves₂.accounted
  refine ⟨?_, ?_⟩
  · simp only [perform, Gate.perform, Indicator.perform, harrive₁, harrive₂, h.current]
    exact .same nofun
  · simp only [perform]
    rw [hact₁] at hvisits hroom₁ hversions hserves₁ ⊢
    rw [hact₂] at hvisits hversions hserves₂ ⊢
    exact {
      selector := h.selector
      current := h.current
      slowDrain := h.slowDrain
      strategy := h.strategy
      versions := hversions
      content := hvisits
      size₁ := (Indicator.size_adjust ..).trans h.size₁
      size₂ := (Indicator.size_adjust ..).trans h.size₂
      serves₁ := ⟨hserves₁, hroom₁⟩
      serves₂ := ⟨hserves₂, roomy_of_versions hroom₁ hversions⟩
      events := h.events }

theorem act_leave {number slot : Nat} {v : Version}
    (hvisit : g.content.visits[number]? = some ⟨(slot, v), false⟩) :
    act g (.leave number) = { g with
      gate.indicator := (g.gate.indicator.depart slot v).2
      content.visits := g.content.visits.set number ⟨(slot, v), true⟩ } := by
  simp only [act, hvisit]

theorem mem_inside {number slot : Nat} {v : Version}
    (hvisit : g.content.visits[number]? = some ⟨(slot, v), false⟩) :
    (⟨(slot, v), false⟩ : Visit) ∈ g.inside :=
  List.mem_filter.mpr ⟨List.mem_of_getElem? hvisit, rfl⟩

theorem serves_leave (h : g.Serves) {number slot : Nat} {v : Version}
    (hvisit : g.content.visits[number]? = some ⟨(slot, v), false⟩) :
    (act g (.leave number)).Serves where
  accounted := (stirs_act g (.leave number)).accounted h.accounted
  roomy := by
    intro v'
    have hperm : g.inside.Perm (⟨(slot, v), false⟩ :: (act g (.leave number)).inside) := by
      rw [act_leave hvisit]
      exact perm_filter_set hvisit rfl
    refine lt_of_le_of_lt ?_ (h.roomy v')
    rw [population, population, versions_eq_map, versions_eq_map, (hperm.map _).count_eq,
      List.map_cons]
    exact List.count_le_count_cons

/-- The same visitor may leave both gates, or is not there. -/
theorem Alike.leave (h : g₁.Alike t Register.Alike g₂) (number : Nat) :
    (perform spread₁ (.leave number) g₁).1.Alike t (perform spread₂ (.leave number) g₂).1 ∧
      (perform spread₁ (.leave number) g₁).2.Alike t Register.Alike
        (perform spread₂ (.leave number) g₂).2 := by
  have hvisit : g₁.content.visits[number]?.map unslotted =
      g₂.content.visits[number]?.map unslotted := by
    rw [← List.getElem?_map, ← List.getElem?_map, h.content]
  rcases hvisit₁ : g₁.content.visits[number]? with _ | ⟨⟨slot₁, v₁⟩, _ | _⟩ <;>
    rcases hvisit₂ : g₂.content.visits[number]? with _ | ⟨⟨slot₂, v₂⟩, _ | _⟩ <;>
    rw [hvisit₁, hvisit₂] at hvisit <;> cases hvisit <;>
    simp only [perform, hvisit₁, hvisit₂]
  · exact ⟨.same nofun, h⟩
  · -- The visitor is inside both gates.
    have hdepart₁ : (g₁.gate.indicator.depart slot₁ v₁).1 = .ok () :=
      h.serves₁.depart_ok (mem_inside hvisit₁)
    have hdepart₂ : (g₂.gate.indicator.depart slot₂ v₁).1 = .ok () :=
      h.serves₂.depart_ok (mem_inside hvisit₂)
    have hserves₁ := serves_leave h.serves₁ hvisit₁
    have hserves₂ := serves_leave h.serves₂ hvisit₂
    rw [act_leave hvisit₁] at hserves₁ ⊢
    rw [act_leave hvisit₂] at hserves₂ ⊢
    have hvisits : (g₁.content.visits.set number ⟨(slot₁, v₁), true⟩).map unslotted =
        (g₂.content.visits.set number ⟨(slot₂, v₁), true⟩).map unslotted := by
      rw [List.map_set, List.map_set, h.content]
      rfl
    refine ⟨?_, {
      selector := h.selector
      current := by
        refine (Indicator.current_depart ..).trans (h.current.trans ?_)
        exact (Indicator.current_depart ..).symm
      slowDrain := h.slowDrain
      strategy := h.strategy
      versions := versions_of_visits hvisits
      content := hvisits
      size₁ := (Indicator.size_depart ..).trans h.size₁
      size₂ := (Indicator.size_depart ..).trans h.size₂
      serves₁ := hserves₁
      serves₂ := hserves₂
      events := h.events }⟩
    simp only [Gate.perform, Indicator.perform, hdepart₁, hdepart₂]
    exact .same nofun
  · exact ⟨.same nofun, h⟩

/-- A request of both gates is answered alike and leaves them alike. -/
theorem Alike.perform (h : g₁.Alike t Register.Alike g₂) (hrange₁ : ∀ n, spread₁ n < t.slots₁)
    (hrange₂ : ∀ n, spread₂ n < t.slots₂) {request : Request}
    (hroom : RoomFor spread₁ request g₁) :
    (perform spread₁ request g₁).1.Alike t (perform spread₂ request g₂).1 ∧
      (perform spread₁ request g₁).2.Alike t Register.Alike (perform spread₂ request g₂).2 := by
  cases request with
  | arrive => exact Alike.arrive h hrange₁ hrange₂ hroom
  | leave number => exact Alike.leave h number
  | isEmpty v =>
    refine ⟨?_, h⟩
    simp only [Register.perform, Gate.perform, Indicator.perform, h.isEmpty_eq]
    exact .same nofun
  | readers v =>
    refine ⟨?_, h⟩
    simp only [Register.perform, Gate.perform, Indicator.perform, h.serves₁.readers_eq,
      h.serves₂.readers_eq, h.population_eq]
    exact .same nofun
  | publish side => exact ⟨.same nofun, h.publish side⟩
  | inspection pretty =>
    refine ⟨?_, h⟩
    simp only [Register.perform, Gate.perform, h.serves₁.inspection_eq, h.serves₂.inspection_eq,
      h.size₁, h.size₂, ← h.slowDrain, ← h.viewOf_eq]
    exact .gate pretty _ _
  | view =>
    obtain ⟨view, hview₁, hview₂⟩ := h.view_eq
    refine ⟨?_, h⟩
    simp only [Register.perform, Gate.perform, hview₁, hview₂]
    exact .same nofun

/-- Those who use the gates match. -/
theorem matched_company (hrange₁ : ∀ n, spread₁ n < t.slots₁)
    (hrange₂ : ∀ n, spread₂ n < t.slots₂) :
    Company.Matched t Register.Alike (RoomFor (K := K) spread₁) (company spread₁)
      (company spread₂) where
  perform h hroom := Alike.perform h hrange₁ hrange₂ hroom
  release h := ⟨rfl, h⟩

/-- When a script is used up while somebody is inside, both writers are stuck. -/
theorem closing_company (t : Terms) (spread₁ spread₂ : Nat → Nat) :
    Company.Closing (K := K) t Register.Alike (· = .stuck) (company spread₁).lastTurn
      (company spread₂).lastTurn :=
  Company.closing_of_nobody t Register.Alike (fun _ => rfl) fun _ => rfl

/-- A step of both gates is answered alike and leaves them alike, if any fault may be told. -/
theorem Alike.performStep (hmay : ∀ fault, t.may fault) (h : g₁.Alike t Register.Alike g₂)
    (hrange₁ : ∀ n, spread₁ n < t.slots₁) (hrange₂ : ∀ n, spread₂ n < t.slots₂) {step : Step}
    (hfits : FitsStep spread₁ step g₁) :
    (performStep spread₁ step g₁).1.Alike t (performStep spread₂ step g₂).1 ∧
      (performStep spread₁ step g₁).2.Alike t Register.Alike (performStep spread₂ step g₂).2 := by
  cases step with
  | ask request => exact Alike.perform h hrange₁ hrange₂ hfits
  | toggle script =>
    obtain ⟨outcome, u₁, u₂, htoggle₁, htoggle₂, halike, -⟩ :=
      (matched_company hrange₁ hrange₂).toggle (closing_company t spread₁ spread₂) h hfits
    simp only [Register.performStep, Company.polls_eq, htoggle₁, htoggle₂]
    exact ⟨Answer.alike_ofOutcome nofun fun fault _ => hmay fault, halike⟩

/-- Two gates that hold the same, whichever slots their visitors are on. -/
structure SameButSlots (g₁ g₂ : Gated K Register) : Prop where
  /-- New readers are sent to the same side. -/
  selector : g₁.gate.selector = g₂.gate.selector
  /-- New visitors arrive under the same version. -/
  current : g₁.gate.indicator.current = g₂.gate.indicator.current
  /-- As many visitors are counted under either version. -/
  readers : ∀ v, g₁.gate.indicator.readers v = g₂.gate.indicator.readers v
  /-- The same visitors have come and left, under the same versions. -/
  visits : g₁.content.visits.map unslotted = g₂.content.visits.map unslotted
  /-- The writers wait alike. -/
  strategy : g₁.strategy = g₂.strategy

theorem Alike.sameButSlots (h : g₁.Alike t Register.Alike g₂) : SameButSlots g₁ g₂ where
  selector := h.selector
  current := h.current
  readers v := by rw [h.serves₁.readers_eq, h.serves₂.readers_eq, h.population_eq]
  visits := h.content
  strategy := h.strategy

/-- Whether there is room for all who arrive in a session. -/
def Fits (spread : Nat → Nat) (steps : List Step) (g : Gated K Register) : Prop :=
  ∀ i step, steps[i]? = some step → FitsStep spread step (session spread (steps.take i) g).2

/-- Sessions of the same steps are alike, from gates that are. -/
theorem Alike.session (hmay : ∀ fault, t.may fault) (h : g₁.Alike t Register.Alike g₂)
    (hrange₁ : ∀ n, spread₁ n < t.slots₁) (hrange₂ : ∀ n, spread₂ n < t.slots₂)
    {steps : List Step} (hfits : Fits spread₁ steps g₁) :
    TranscriptsAlike t (session spread₁ steps g₁).1 (session spread₂ steps g₂).1 ∧
      (session spread₁ steps g₁).2.Alike t Register.Alike (session spread₂ steps g₂).2 := by
  refine transcripts_alike (Register.performStep spread₁) (Register.performStep spread₂)
    Gated.takeEvents (FitsStep spread₁) (Gated.Alike t Register.Alike) ?_ h hfits
  intro step u₁ u₂ halike hstep
  obtain ⟨hanswer, hnext⟩ := Alike.performStep hmay halike hrange₁ hrange₂ hstep
  exact ⟨hanswer, hnext.events, { hnext with
    serves₁ := hnext.serves₁.congr rfl rfl
    serves₂ := hnext.serves₂.congr rfl rfl
    events := .nil }⟩

/-- Two sessions of the same steps that go the same way, whichever slots the visitors are on. -/
structure GoAlike (spread₁ spread₂ : Nat → Nat) (steps : List Step) (g₁ g₂ : Gated K Register) :
    Prop where
  /-- Each step is answered the same and causes the same events, apart from slots. -/
  told : TranscriptsAlike ⟨fun _ => True, g₁.gate.indicator.size, g₂.gate.indicator.size⟩
    (session spread₁ steps g₁).1 (session spread₂ steps g₂).1
  /-- Between any two steps both gates hold the same. -/
  between : ∀ i, SameButSlots (session spread₁ (steps.take i) g₁).2
    (session spread₂ (steps.take i) g₂).2
  /-- In any pause of a toggle both gates hold the same: if the toggle broke off there, it would in
  both. -/
  during : ∀ i script, steps[i]? = some (.toggle script) → ∀ n fault, ∃ outcome u₁ u₂,
    Gated.toggle ((company spread₁).turns (script.take n) ++ [halt fault])
      (session spread₁ (steps.take i) g₁).2 = (outcome, u₁) ∧
    Gated.toggle ((company spread₂).turns (script.take n) ++ [halt fault])
      (session spread₂ (steps.take i) g₂).2 = (outcome, u₂) ∧
    SameButSlots u₁ u₂

/-- Sessions with gates that are alike at first go the same way. -/
theorem Alike.goAlike (h : g₁.Alike ⟨fun _ => True, g₁.gate.indicator.size,
      g₂.gate.indicator.size⟩ Register.Alike g₂)
    (hrange₁ : ∀ n, spread₁ n < g₁.gate.indicator.size)
    (hrange₂ : ∀ n, spread₂ n < g₂.gate.indicator.size) {steps : List Step}
    (hfits : Fits spread₁ steps g₁) : GoAlike spread₁ spread₂ steps g₁ g₂ := by
  have hbetween (i : Nat) := (Alike.session (fun _ => trivial) h hrange₁ hrange₂
    (FitsThroughout.take hfits i)).2
  refine ⟨(Alike.session (fun _ => trivial) h hrange₁ hrange₂ hfits).1,
    fun i => Alike.sameButSlots (hbetween i), ?_⟩
  intro i script hstep n fault
  obtain ⟨outcome, u₁, u₂, htoggle₁, htoggle₂, halike, -⟩ :=
    (matched_company hrange₁ hrange₂).toggle (Company.closing_halt _ _ fault) (hbetween i)
      (Company.FitsDuring.take (hfits i _ hstep) n)
  exact ⟨outcome, u₁, u₂, htoggle₁, htoggle₂, Alike.sameButSlots halike⟩

/-- Whether there is room for all who arrive in a step, looking at each pause once. -/
def HasRoom (spread : Nat → Nat) (step : Step) (g : Gated K Register) : Prop :=
  match step with
  | .ask request => RoomFor spread request g
  | .toggle script => ∀ n (hn : n < script.length), (company spread).FitsMoves (RoomFor spread)
    script[n] (g.toggle ((company spread).turns (script.take n) ++ [halt .stuck])).2

instance (spread : Nat → Nat) (step : Step) (g : Gated K Register) :
    Decidable (HasRoom spread step g) :=
  match step with
  | .ask request => inferInstanceAs (Decidable (RoomFor spread request g))
  | .toggle script => inferInstanceAs (Decidable (∀ n (_ : n < script.length), _))

theorem fits_of_hasRoom {spread : Nat → Nat} {steps : List Step}
    (h : ∀ i (hi : i < steps.length), HasRoom spread steps[i]
      (session spread (steps.take i) g).2) : Fits spread steps g := by
  intro i step hstep
  obtain ⟨hi, rfl⟩ := List.getElem?_eq_some_iff.mp hstep
  have hroom := h i hi
  cases hcase : steps[i] with
  | ask request =>
    rw [hcase] at hroom
    exact hroom
  | toggle script =>
    rw [hcase] at hroom
    exact Company.fitsDuring_of_pauses hroom

/-- New gates without visitors are alike. -/
theorem alike_create {slots₁ slots₂ : Nat} {slowDrain : Option Duration} {gate₁ gate₂ : Gate}
    (hgate₁ : Gate.create slots₁ slowDrain = .ok gate₁)
    (hgate₂ : Gate.create slots₂ slowDrain = .ok gate₂) (strategy : Strategy)
    (may : Fault → Prop) :
    gate₁.indicator.size = slots₁ ∧ gate₂.indicator.size = slots₂ ∧
      Gated.Alike (K := K) ⟨may, slots₁, slots₂⟩ Register.Alike
        { gate := gate₁, strategy, content := {} } { gate := gate₂, strategy, content := {} } := by
  have hnew {slots : Nat} {gate : Gate} (hgate : Gate.create slots slowDrain = .ok gate) :
      gate.selector = .left ∧ gate.slowDrain = slowDrain ∧
        gate.indicator.current = .zero ∧ gate.indicator.size = slots := by
    unfold Gate.create Indicator.create at hgate
    split at hgate
    · cases hgate
    · cases hgate
      simp [Indicator.size]
  have hserves {slots : Nat} {gate : Gate} (hgate : Gate.create slots slowDrain = .ok gate) :
      Serves (K := K) (C := Register) { gate, strategy, content := {} } :=
    ⟨Gate.accounts_of_create hgate, roomy_of_deserted rfl⟩
  obtain ⟨hselector₁, hslow₁, hcurrent₁, hsize₁⟩ := hnew hgate₁
  obtain ⟨hselector₂, hslow₂, hcurrent₂, hsize₂⟩ := hnew hgate₂
  exact ⟨hsize₁, hsize₂, {
    selector := hselector₁.trans hselector₂.symm
    current := hcurrent₁.trans hcurrent₂.symm
    slowDrain := hslow₁.trans hslow₂.symm
    strategy := rfl
    versions := rfl
    content := rfl
    size₁ := hsize₁
    size₂ := hsize₂
    serves₁ := hserves hgate₁
    serves₂ := hserves hgate₂
    events := .nil }⟩

end Register

end LeftRight
