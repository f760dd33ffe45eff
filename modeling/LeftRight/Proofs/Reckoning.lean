import Mathlib.Tactic.IntervalCases
import LeftRight.Proofs.Outstanding
import LeftRight.Proofs.Pauses

/-!
# Sessions with a ledger

A session with a gate that keeps a ledger goes exactly as one with a bare gate. At its end, and
whenever something is asked on the way, each counter is the number of the arrivals at its place less
the departures from it, up to a multiple of the word size, whoever departs and however the versions
were switched meanwhile.
-/

namespace LeftRight

namespace Gated

variable {K C : Type} {poll : Poll K C} {polls : List (Poll K C)} {polls' : List (Poll K Unit)}

/-- A gate without what lies behind it. -/
def bare (g : Gated K C) : Gated K Unit := ⟨g.gate, g.strategy, (), g.events⟩

/-- Whether a pause at a bare gate goes as one at a gate before something. -/
def Mirrors (poll : Poll K C) (poll' : Poll K Unit) : Prop :=
  ∀ g : Gated K C, poll' g.bare = ((poll g).1, (poll g).2.bare)

theorem bare_reportDrain (v : Version) (count : Nat) (g : Gated K C) :
    g.bare.reportDrain v count = (g.reportDrain v count).bare := by
  rw [reportDrain, reportDrain]
  change (if g.gate.isSlow count then _ else _) = _
  split <;> rfl

theorem bare_awaitEmpty_of_isEmpty {v : Version} {count : Nat} {g : Gated K C}
    (hv : g.gate.indicator.isEmpty v = true) :
    g.bare.awaitEmpty v polls' count = (.ok polls', (g.reportDrain v count).bare) := by
  rw [← bare_reportDrain]
  exact awaitEmpty_of_isEmpty hv

/-- A wait at a bare gate goes on as long, and has as many pauses left that mirror one another. -/
theorem bare_awaitEmpty (hpolls : List.Forall₂ Mirrors polls polls') (v : Version) (count : Nat)
    (g : Gated K C) :
    (∃ fault g', g.awaitEmpty v polls count = (.error fault, g') ∧
      g.bare.awaitEmpty v polls' count = (.error fault, g'.bare)) ∨
    ∃ rest rest' g', g.awaitEmpty v polls count = (.ok rest, g') ∧
      g.bare.awaitEmpty v polls' count = (.ok rest', g'.bare) ∧
      List.Forall₂ Mirrors rest rest' := by
  induction hpolls generalizing g count with
  | nil =>
    by_cases hv : g.gate.indicator.isEmpty v = true
    · exact .inr ⟨[], [], _, awaitEmpty_of_isEmpty hv, bare_awaitEmpty_of_isEmpty hv, .nil⟩
    · have hv' : ¬ g.bare.gate.indicator.isEmpty v = true := hv
      refine .inl ⟨.stuck, g.record .stuck, ?_, ?_⟩
      · rw [awaitEmpty.eq_def, if_neg hv]
      · rw [awaitEmpty.eq_def, if_neg hv']
        rfl
  | @cons poll poll' polls polls' hpoll hpolls ih =>
    by_cases hv : g.gate.indicator.isEmpty v = true
    · exact .inr ⟨_, _, _, awaitEmpty_of_isEmpty hv, bare_awaitEmpty_of_isEmpty hv,
        .cons hpoll hpolls⟩
    · have hv' : ¬ g.bare.gate.indicator.isEmpty v = true := hv
      have hpoll' := hpoll g
      rcases hpaused : poll g with ⟨fault | _, g₁⟩ <;> rw [hpaused] at hpoll'
      · exact .inl ⟨fault, g₁, awaitEmpty_cons_of_error hv hpaused _,
          awaitEmpty_cons_of_error hv' hpoll' _⟩
      · rw [awaitEmpty_cons_of_ok hv hpaused, awaitEmpty_cons_of_ok hv' hpoll']
        exact ih (count + 1) g₁

/-- A toggle of a bare gate goes as one of a gate before something. -/
theorem bare_toggle (hpolls : List.Forall₂ Mirrors polls polls') (g : Gated K C) :
    g.bare.toggle polls' = ((g.toggle polls).1, (g.toggle polls).2.bare) := by
  rcases bare_awaitEmpty hpolls g.gate.indicator.current.other 0 g.firstWait with
    ⟨fault, g₁, hbroken, hbroken'⟩ | ⟨rest, rest', g₁, hemptied, hemptied', hrest⟩
  · rw [(Toggled.first hbroken).eq]
    exact (Toggled.first (g := g.bare) hbroken').eq
  · rcases bare_awaitEmpty hrest g.gate.indicator.current 0
      (g₁.secondWait g.gate.indicator.current.other) with
      ⟨fault, g₂, hbroken, hbroken'⟩ | ⟨rest, rest', g₂, hdrained, hdrained', -⟩
    · rw [(Toggled.second hemptied hbroken).eq]
      exact (Toggled.second (g := g.bare) hemptied' hbroken').eq
    · rw [(Toggled.both hemptied hdrained).eq]
      exact (Toggled.both (g := g.bare) hemptied' hdrained').eq

end Gated

namespace Company

open Gated

variable {R K C : Type} {company : Company R K C} {P : Gated K C → Prop}

/-- What each request keeps, and what is kept when all are let go, is kept by a pause. -/
theorem turn_kept (hP : Factual P) (hperform : ∀ request g, P g → P (company.perform request g).2)
    (hrelease : ∀ g, P g → P (company.release g).2) (moves : List (Move R)) (did : List (Answer K))
    {g : Gated K C} (h : P g) : P (company.turn moves did g).2 := by
  induction moves generalizing g did with
  | nil => exact hP g _ rfl rfl h
  | cons move moves ih =>
    cases move with
    | raise message => exact hP (company.release g).2 _ rfl rfl (hrelease g h)
    | ask request => exact ih _ (hperform request g h)

/-- So it is by each pause of a script. -/
theorem polls_kept (hP : Factual P) (hperform : ∀ request g, P g → P (company.perform request g).2)
    (hrelease : ∀ g, P g → P (company.release g).2) (script : Script R) :
    ∀ poll ∈ company.polls script, ∀ g, P g → P (poll g).2 := by
  intro poll hpoll g h
  rcases List.mem_append.mp hpoll with hpoll | hpoll
  · obtain ⟨moves, -, rfl⟩ := List.mem_map.mp hpoll
    exact turn_kept hP hperform hrelease moves [] h
  · have hreleased := hrelease g h
    rw [List.mem_singleton.mp hpoll, lastTurn.eq_def]
    rcases hresult : company.release g with ⟨_ | ⟨thread, threads⟩, g₁⟩ <;>
      rw [hresult] at hreleased <;> exact hP g₁ _ rfl rfl hreleased

end Company

/-- A gate that keeps a ledger of what is asked of its indicator. -/
abbrev LedgerGate := Gated Empty Ledger

/-- What is written down for a request. -/
def Ledger.entries (i : Indicator) : GateRequest → Ledger
  | .indicator request => [written request i]
  | _ => []

namespace LedgerGate

open Gated Ledger

/-- Those who use a gate that keeps a ledger, who do as those who use a bare gate. -/
def company : Company GateRequest Empty Ledger where
  perform request g :=
    let (answer, gate) := g.gate.perform request
    (answer, { g with gate, content := g.content ++ entries g.gate.indicator request })
  release g := ([], g)

/-- What a step comes to. -/
def perform (step : BareGate.Step) (g : LedgerGate) : Answer Empty × LedgerGate :=
  match step with
  | .ask request => company.perform request g
  | .toggle script =>
    let (outcome, g) := g.toggle (company.polls script)
    (.ofOutcome (fun () => .done) outcome, g)

/-- A session with a gate that keeps a ledger. -/
def session (steps : List BareGate.Step) (g : LedgerGate) :
    List (Answer Empty × List (Event Empty)) × LedgerGate :=
  transcript perform Gated.takeEvents steps g

variable {slots : Nat} {g : LedgerGate}

/-! ## The ledger makes no difference -/

theorem mirrors_turn (moves : List (Move GateRequest)) (did : List (Answer Empty)) :
    Mirrors (company.turn moves did) (BareGate.company.turn moves did) := by
  intro g
  induction moves generalizing g did with
  | nil => rfl
  | cons move moves ih =>
    cases move with
    | raise message => rfl
    | ask request => exact ih _ (company.perform request g).2

theorem mirrors_polls (script : Script GateRequest) :
    List.Forall₂ Mirrors (company.polls script) (BareGate.company.polls script) := by
  refine List.rel_append ?_ (.cons (fun _ => rfl) .nil)
  rw [List.forall₂_map_left_iff, List.forall₂_map_right_iff, List.forall₂_same]
  exact fun moves _ => mirrors_turn moves []

theorem bare_perform (step : BareGate.Step) (g : LedgerGate) :
    BareGate.perform step g.bare = ((perform step g).1, (perform step g).2.bare) := by
  cases step with
  | ask request => rfl
  | toggle script =>
    simp only [BareGate.perform, perform, bare_toggle (mirrors_polls script)]

/-- A session with a ledger is answered as one without, and comes to the same gate. -/
theorem bare_session (steps : List BareGate.Step) (g : LedgerGate) :
    BareGate.session steps g.bare = ((session steps g).1, (session steps g).2.bare) := by
  induction steps generalizing g with
  | nil => rfl
  | cons step steps ih =>
    have hrest : transcript BareGate.perform Gated.takeEvents steps
        { (perform step g).2.bare with events := [] } = _ :=
      ih { (perform step g).2 with events := [] }
    simp only [BareGate.session, session, transcript, bare_perform, Gated.takeEvents, hrest]
    rfl

/-! ## The ledger tells what the indicator has come to -/

/-- Whether the indicator of a gate has come to where the ledger says, and has answered so. -/
structure Reckoned (slots : Nat) (g : LedgerGate) : Prop where
  /-- The counters are those that the ledger says. -/
  describes : Describes slots g.content g.gate.indicator
  /-- Everything was answered as the ledger says. -/
  answered : Answered slots g.content

theorem factual_reckoned : Factual (Reckoned slots) := by
  intro g g' hgate hcontent h
  exact ⟨hgate ▸ hcontent ▸ h.describes, hcontent ▸ h.answered⟩

theorem Reckoned.switch (h : Reckoned slots g) (v : Version) : Reckoned slots (g.switch v) :=
  ⟨h.describes.switch v, h.answered⟩

/-- A request is written down as it is answered. -/
theorem Reckoned.ask (h : Reckoned slots g) (request : GateRequest) :
    Reckoned slots (company.perform request g).2 := by
  have hsame (hnone : entries g.gate.indicator request = [])
      (hgate : (company.perform request g).2.gate.indicator = g.gate.indicator) :
      Reckoned slots (company.perform request g).2 := by
    have hcontent : (company.perform request g).2.content = g.content := by
      change g.content ++ entries g.gate.indicator request = g.content
      rw [hnone, List.append_nil]
    exact ⟨hgate ▸ hcontent ▸ h.describes, hcontent ▸ h.answered⟩
  cases request with
  | indicator request =>
    exact ⟨h.describes.perform request, h.answered.concat (h.describes.answer_eq request)⟩
  | _ => exact hsame rfl rfl

theorem Reckoned.poll (script : Script GateRequest) :
    ∀ poll ∈ company.polls script, ∀ g, Reckoned slots g → Reckoned slots (poll g).2 :=
  Company.polls_kept factual_reckoned (fun request _ h => h.ask request) (fun _ h => h) script

/-- The ledger still tells what the indicator has come to after a step. -/
theorem Reckoned.perform (h : Reckoned slots g) (step : BareGate.Step) :
    Reckoned slots (perform step g).2 := by
  cases step with
  | ask request => exact h.ask request
  | toggle script =>
    exact toggle_kept factual_reckoned (fun g v hg => hg.switch v) (Reckoned.poll script) h

/-- And after a session. -/
theorem Reckoned.session (h : Reckoned slots g) (steps : List BareGate.Step) :
    Reckoned slots (session steps g).2 := by
  induction steps generalizing g with
  | nil => exact h
  | cons step steps ih =>
    have hnext : Reckoned slots { (LedgerGate.perform step g).2 with events := [] } :=
      factual_reckoned (LedgerGate.perform step g).2 _ rfl rfl (h.perform step)
    exact ih hnext

/-- What is true of an indicator of so many slots after the requests of a ledger. -/
structure Modular (slots : Nat) (ledger : Ledger) (i : Indicator) : Prop where
  /-- Each counter is the number of the arrivals less the departures, modulo the word size. -/
  count : ∀ slot < slots, ∀ v,
    ((i.count v slot).toNat : Int) = ledger.tally (slot, v) % UInt64.size
  /-- On a slot that there is not, nobody arrives or departs, and the attempt changes nothing. -/
  outOfRange : ∀ slot, slots ≤ slot →
    i.arrive slot = (.error (.slotOutOfRange slots slot), i) ∧
      ∀ v, i.depart slot v = (.error (.slotOutOfRange slots slot), i)
  /-- A departure breaks off if and only if the counter is zero. -/
  depart : ∀ slot < slots, ∀ v,
    (i.depart slot v).1 = if i.count v slot = 0 then .error (.underflow slot v) else .ok ()
  /-- It has then set the counter to the last word. -/
  underflow : ∀ slot < slots, ∀ v, i.count v slot = 0 →
    ((i.depart slot v).2.count v slot).toNat = UInt64.size - 1
  /-- A version is empty if and only if every counter of it is zero. -/
  isEmpty : ∀ v, i.isEmpty v = true ↔ ∀ slot < slots, i.count v slot = 0
  /-- Its readers are the exact sum of the counters, as long as this fits into a word. -/
  readers : ∀ v, i.readers v =
    if ∑ slot ∈ Finset.range slots, (i.count v slot).toNat < UInt64.size then
      .ok (∑ slot ∈ Finset.range slots, (i.count v slot).toNat)
    else .error .totalOverflow

theorem modular_of_describes {ledger : Ledger} {i : Indicator} (h : Describes slots ledger i) :
    Modular slots ledger i where
  count slot hslot v := by
    rw [h.count slot hslot v, level]
    exact Int.toNat_of_nonneg (Int.emod_nonneg _ (by decide))
  outOfRange slot hslot := by
    have hout : ¬ slot < i.size := by
      rw [h.size]
      exact Nat.not_lt.mpr hslot
    refine ⟨?_, fun v => ?_⟩
    · rw [Indicator.arrive, if_neg hout, h.size]
    · rw [Indicator.depart, if_neg hout, h.size]
  depart slot hslot v := by rw [Indicator.depart, if_pos (h.size ▸ hslot)]
  underflow slot hslot v hzero := by
    rw [Indicator.depart_snd (h.size ▸ hslot), Indicator.count_adjust (h.size ▸ hslot), hzero]
    rfl
  isEmpty v := by
    rw [h.isEmpty_iff]
    exact forall₂_congr fun slot hslot => (h.count_eq_zero_iff hslot v).symm
  readers v := by rw [Indicator.readers, Indicator.total_eq_sum, h.size]

/-- In every session with a new gate, whoever arrives and departs and however often the versions are
switched, each counter is the number of the arrivals at its place less the departures from it,
modulo the word size, and everything is answered accordingly. If every departure hands back an
arrival, none breaks off, and a version is empty if and only if nobody who arrived under it is
outstanding. The ledger, by which this is said, makes no difference to the session. -/
theorem counters_modular {slots : Nat} (hslots : 0 < slots) (slowDrain : Option Duration) :
    ∃ gate, Gate.create slots slowDrain = .ok gate ∧
      ∀ (strategy : Strategy) (steps : List BareGate.Step)
        (told : List (Answer Empty × List (Event Empty))) (g : LedgerGate),
        session steps ⟨gate, strategy, [], []⟩ = (told, g) →
          BareGate.session steps ⟨gate, strategy, (), []⟩ = (told, g.bare) ∧
          Modular slots g.content g.gate.indicator ∧
          Answered slots g.content ∧
          ∀ partner, Paired slots g.content partner → Roomy slots g.content partner →
            Balanced slots g.content partner ∧
              ∀ v, g.gate.indicator.isEmpty v = true ↔
                ∀ slot < slots, outstanding partner (slot, v) g.content.length g.content = ∅ := by
  obtain ⟨gate, hgate⟩ : ∃ gate, Gate.create slots slowDrain = .ok gate := by
    rw [Gate.create, Indicator.create, dif_neg hslots.ne']
    exact ⟨_, rfl⟩
  refine ⟨gate, hgate, fun strategy steps told g hsession => ?_⟩
  have hreckoned : Reckoned slots g := by
    have hstart : Reckoned slots ⟨gate, strategy, [], []⟩ :=
      ⟨describes_of_create hgate, answered_nil⟩
    have hend := hstart.session steps
    rwa [hsession] at hend
  refine ⟨?_, modular_of_describes hreckoned.describes, hreckoned.answered,
    fun partner hpaired hroom => ⟨hpaired.balanced hroom hreckoned.answered,
      hpaired.isEmpty_iff hroom hreckoned.describes⟩⟩
  have hbare := bare_session steps ⟨gate, strategy, [], []⟩
  rwa [hsession] at hbare

/-- A new gate of two slots. -/
def twoSlots : Gate where
  indicator := { slots := [{}, {}], slots_ne_nil := List.cons_ne_nil _ _ }
  slowDrain := none

theorem create_twoSlots : Gate.create 2 none = .ok twoSlots := rfl

-- Both counters of a version are taken through zero, so that their sum no longer fits.
example : (BareGate.session [.ask (.indicator (.depart 0 .one)), .ask (.indicator (.readers .one)),
      .ask (.indicator (.depart 1 .one)), .ask (.indicator (.readers .one)),
      .ask (.indicator (.arrive 2))] ⟨twoSlots, .yielding, (), []⟩).1.map Prod.fst =
    [.fault (.underflow 0 .one), .count 18446744073709551615, .fault (.underflow 1 .one),
      .fault .totalOverflow, .fault (.slotOutOfRange 2 2)] := by decide +kernel

/-- Two readers arrive, and leave while the versions are switched. A third one stays. -/
def returningSteps : List BareGate.Step := [
  .ask (.indicator (.arrive 0)),
  .ask (.indicator (.arrive 0)),
  .toggle [
    [.ask (.indicator (.depart 0 .zero))],
    [.ask (.indicator (.arrive 1)), .ask (.indicator (.depart 0 .zero))]],
  .ask (.indicator (.isEmpty .zero)),
  .ask (.indicator (.isEmpty .one))]

/-- What is written down of it. -/
def returningLedger : Ledger := [
  ⟨.arrive 0, .zero, .version .zero⟩,
  ⟨.arrive 0, .zero, .version .zero⟩,
  ⟨.depart 0 .zero, .one, .done⟩,
  ⟨.arrive 1, .one, .version .one⟩,
  ⟨.depart 0 .zero, .one, .done⟩,
  ⟨.isEmpty .zero, .one, .flag true⟩,
  ⟨.isEmpty .one, .one, .flag false⟩]

/-- Which arrivals the departures hand back. -/
def handedBack (k : Nat) : Nat := if k = 4 then 1 else 0

theorem departs_returning {k slot : Nat} {v : Version}
    (h : returningLedger[k]?.any (Entry.departsFrom (slot, v)) = true) :
    (k = 2 ∨ k = 4) ∧ slot = 0 ∧ v = .zero := by
  obtain ⟨e, he, hdeparts⟩ := (Option.any_eq_true _ _).mp h
  have hk : k < 7 := (List.getElem?_eq_some_iff.mp he).1
  interval_cases k <;> cases he <;> cases of_decide_eq_true hdeparts <;> simp

theorem paired_returning : Paired 2 returningLedger handedBack where
  handsBack k slot v h := by
    obtain ⟨rfl | rfl, rfl, rfl⟩ := departs_returning h <;> decide
  distinct k k' place place' h h' hsame := by
    obtain ⟨rfl | rfl, -⟩ := departs_returning h <;>
      obtain ⟨rfl | rfl, -⟩ := departs_returning h' <;> first | rfl | cases hsame

/-- Each of the two departures finds its reader counted, and only the third reader is outstanding in
the end. -/
theorem counters_modular_returning :
    Gate.create 2 none = .ok twoSlots ∧ ∃ told g,
      session returningSteps ⟨twoSlots, .yielding, [], []⟩ = (told, g) ∧
      BareGate.session returningSteps ⟨twoSlots, .yielding, (), []⟩ = (told, g.bare) ∧
      g.content = returningLedger ∧
      Modular 2 returningLedger g.gate.indicator ∧
      Answered 2 returningLedger ∧
      Paired 2 returningLedger handedBack ∧
      Roomy 2 returningLedger handedBack ∧
      Balanced 2 returningLedger handedBack ∧
      g.gate.indicator.isEmpty .zero = true ∧
      g.gate.indicator.isEmpty .one = false := by
  obtain ⟨gate, hgate, hall⟩ := counters_modular (by decide : 0 < 2) none
  obtain rfl := Except.ok.inj (hgate.symm.trans create_twoSlots)
  rcases hsession : session returningSteps ⟨twoSlots, .yielding, [], []⟩ with ⟨told, g⟩
  have hcontent : g.content = returningLedger := by
    have hwritten : (session returningSteps ⟨twoSlots, .yielding, [], []⟩).2.content =
      returningLedger := by decide +kernel
    rwa [hsession] at hwritten
  obtain ⟨hbare, hmodular, hanswered, hpaired⟩ := hall .yielding returningSteps told g hsession
  rw [hcontent] at hmodular hanswered hpaired
  have hroom : Roomy 2 returningLedger handedBack := roomy_of_length (by decide) 2 handedBack
  obtain ⟨hbalanced, hempty⟩ := hpaired handedBack paired_returning hroom
  refine ⟨create_twoSlots, told, g, rfl, hbare, hcontent, hmodular, hanswered, paired_returning,
    hroom, hbalanced, (hempty .zero).mpr (by decide), ?_⟩
  rw [← Bool.not_eq_true, hempty]
  decide

end LedgerGate

end LeftRight
