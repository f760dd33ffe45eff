import LeftRight.Proofs.Accounts

/-!
# The two waits of a toggle

A toggle waits for the version that is not current, switches, and waits for the one that was. What
each pause keeps is kept by a wait, whether it ends or breaks off. While a version is waited for it
is not current, so that nobody arrives under it; hence a toggle that returns leaves nobody inside
who was counted before the switch of versions.
-/

namespace LeftRight.Gated

section Waits

variable {K C : Type} {polls rest : List (Poll K C)} {v : Version} {count : Nat}
  {g g₁ g' : Gated K C} {fault : Fault}

/-- Where a toggle begins to wait for the version that is not current. -/
def firstWait (g : Gated K C) : Gated K C :=
  (g.record (.toggling g.gate.indicator.current g.gate.indicator.current.other)).restart

/-- Where a toggle that has waited for a version makes it current, and begins to wait for the
other one. -/
def secondWait (v : Version) (g : Gated K C) : Gated K C := (g.switch v).restart

@[simp] theorem firstWait_gate (g : Gated K C) : g.firstWait.gate = g.gate := rfl

/-- How a toggle can go. -/
inductive Toggled (polls : List (Poll K C)) (g : Gated K C) :
    Except Fault Unit → Gated K C → Prop
  /-- The first wait breaks off. -/
  | first {fault : Fault} {g' : Gated K C}
      (broken : g.firstWait.awaitEmpty g.gate.indicator.current.other polls 0 =
        (.error fault, g')) : Toggled polls g (.error fault) g'
  /-- The first wait ends, and the second one breaks off. -/
  | second {rest : List (Poll K C)} {g₁ : Gated K C} {fault : Fault} {g' : Gated K C}
      (emptied : g.firstWait.awaitEmpty g.gate.indicator.current.other polls 0 = (.ok rest, g₁))
      (broken : (g₁.secondWait g.gate.indicator.current.other).awaitEmpty
        g.gate.indicator.current rest 0 = (.error fault, g')) : Toggled polls g (.error fault) g'
  /-- Both waits end. -/
  | both {rest : List (Poll K C)} {g₁ : Gated K C} {rest' : List (Poll K C)} {g' : Gated K C}
      (emptied : g.firstWait.awaitEmpty g.gate.indicator.current.other polls 0 = (.ok rest, g₁))
      (drained : (g₁.secondWait g.gate.indicator.current.other).awaitEmpty
        g.gate.indicator.current rest 0 = (.ok rest', g')) : Toggled polls g (.ok ()) g'

theorem Toggled.eq {outcome : Except Fault Unit} (h : g.Toggled polls outcome g') :
    g.toggle polls = (outcome, g') := by
  cases h with
  | first broken =>
    unfold firstWait at broken
    simp only [toggle, drain, broken]
  | second emptied broken =>
    unfold firstWait at emptied
    unfold secondWait at broken
    simp only [toggle, drain, emptied, broken]
  | both emptied drained =>
    unfold firstWait at emptied
    unfold secondWait at drained
    simp only [toggle, drain, emptied, drained]

/-- A toggle goes in one of these ways. -/
theorem toggled_toggle (polls : List (Poll K C)) (g : Gated K C) :
    g.Toggled polls (g.toggle polls).1 (g.toggle polls).2 := by
  rcases hfirst : g.firstWait.awaitEmpty g.gate.indicator.current.other polls 0 with
    ⟨fault | rest, g₁⟩
  · rw [(Toggled.first hfirst).eq]
    exact .first hfirst
  · rcases hsecond : (g₁.secondWait g.gate.indicator.current.other).awaitEmpty
      g.gate.indicator.current rest 0 with ⟨fault | rest', g₂⟩
    · rw [(Toggled.second hfirst hsecond).eq]
      exact .second hfirst hsecond
    · rw [(Toggled.both hfirst hsecond).eq]
      exact .both hfirst hsecond

/-- A property of the gate and of what lies behind it: the strategy and the trace make no
difference. -/
def Factual (P : Gated K C → Prop) : Prop :=
  ∀ g g' : Gated K C, g'.gate = g.gate → g'.content = g.content → P g → P g'

variable {P : Gated K C → Prop}

/-- What each pause keeps is kept by a wait. -/
theorem awaitEmpty_kept (hP : Factual P) (hpolls : ∀ poll ∈ polls, ∀ g, P g → P (poll g).2)
    (v : Version) (count : Nat) (h : P g) : P (g.awaitEmpty v polls count).2 := by
  fun_induction awaitEmpty v polls count g with
  | case1 polls count g => exact hP g _ (reportDrain_gate ..) (reportDrain_content ..) h
  | case2 count g => exact hP g _ rfl rfl h
  | case3 count g _ poll rest fault g' hpoll =>
    have hkept := hpolls poll (List.mem_cons_self ..) g h
    rwa [hpoll] at hkept
  | case4 count g _ poll rest g' hpoll ih =>
    have hkept := hpolls poll (List.mem_cons_self ..) g h
    rw [hpoll] at hkept
    exact ih (fun poll hp => hpolls poll (List.mem_cons_of_mem _ hp)) hkept

/-- The polls that a wait has left are the last ones of those it had. -/
theorem exists_used_of_awaitEmpty (h : g.awaitEmpty v polls count = (.ok rest, g')) :
    ∃ used, polls = used ++ rest ∧
      ∀ more, g.awaitEmpty v (used ++ more) count = (.ok more, g') := by
  fun_induction awaitEmpty v polls count g with
  | case1 polls count g hv =>
    obtain ⟨hrest, rfl⟩ := Prod.mk.inj h
    exact ⟨[], Except.ok.inj hrest, fun more => awaitEmpty_of_isEmpty hv⟩
  | case2 => simp at h
  | case3 => simp at h
  | case4 count g hv poll polls g₁ hpoll ih =>
    obtain ⟨used, rfl, hused⟩ := ih h
    refine ⟨poll :: used, rfl, fun more => ?_⟩
    rw [List.cons_append, awaitEmpty.eq_def, if_neg hv]
    simp only [hpoll]
    exact hused more

/-- A wait without polls ends at once or never. -/
theorem awaitEmpty_nil (v : Version) (count : Nat) (g : Gated K C) :
    (g.awaitEmpty v [] count).2.gate = g.gate ∧
      (g.awaitEmpty v [] count).2.content = g.content := by
  rw [awaitEmpty.eq_def]
  split
  · exact ⟨reportDrain_gate .., reportDrain_content ..⟩
  · exact ⟨rfl, rfl⟩

/-- What each pause and the switch of versions keep is kept by a toggle, whether it returns or
breaks off. -/
theorem toggle_kept (hP : Factual P) (hswitch : ∀ g v, P g → P (g.switch v))
    (hpolls : ∀ poll ∈ polls, ∀ g, P g → P (poll g).2) (h : P g) : P (g.toggle polls).2 := by
  have hstart : P g.firstWait := hP g _ rfl rfl h
  have hfirst := awaitEmpty_kept hP hpolls g.gate.indicator.current.other 0 hstart
  have hrest {rest : List (Poll K C)} {g₁ : Gated K C}
      (emptied : g.firstWait.awaitEmpty g.gate.indicator.current.other polls 0 = (.ok rest, g₁)) :
      P ((g₁.secondWait g.gate.indicator.current.other).awaitEmpty
        g.gate.indicator.current rest 0).2 := by
    obtain ⟨used, rfl, -⟩ := exists_used_of_awaitEmpty emptied
    rw [emptied] at hfirst
    have hsecond : P (g₁.secondWait g.gate.indicator.current.other) :=
      hP (g₁.switch _) _ rfl rfl (hswitch g₁ _ hfirst)
    exact awaitEmpty_kept hP (fun poll hp => hpolls poll (List.mem_append_right used hp)) _ 0
      hsecond
  have htoggled := g.toggled_toggle polls
  generalize (g.toggle polls).1 = outcome, (g.toggle polls).2 = g' at htoggled ⊢
  cases htoggled with
  | first broken => rwa [broken] at hfirst
  | second emptied broken => simpa only [broken] using hrest emptied
  | both emptied drained => simpa only [drained] using hrest emptied

end Waits

variable {K C R : Type} [Placed R] [Attended C R] {polls rest : List (Poll K C)} {v : Version}
  {count : Nat} {g g₁ g' : Gated K C}

theorem factual_accounted : Factual (Accounted : Gated K C → Prop) := by
  intro g g' hgate hcontent h
  rw [Accounted, places, inside, hgate, hcontent]
  exact h

/-- Whether it returns or breaks off, a toggle during which readers arrive and leave keeps the
accounts. -/
theorem Accounted.toggle (h : g.Accounted) (hpolls : ∀ poll ∈ polls, Orderly poll) :
    (g.toggle polls).2.Accounted :=
  toggle_kept factual_accounted (fun _ v hg => Indicator.Accounts.switch hg v)
    (fun poll hp g hg => (hpolls poll hp g).accounted hg) h

/-- While a version that is not current is waited for, it stays so, the accounts are kept, and
nobody arrives under it. -/
theorem awaitEmpty_orderly (hpolls : ∀ poll ∈ polls, Orderly poll)
    (hv : v ≠ g.gate.indicator.current) (h : g.Accounted) (count : Nat) :
    let g' := (g.awaitEmpty v polls count).2
    g'.Accounted ∧ g'.gate.indicator.current = g.gate.indicator.current ∧
      ∀ r ∈ g'.inside, (Placed.place r).2 = v → r ∈ g.inside := by
  refine awaitEmpty_kept (P := fun g' => g'.Accounted ∧
    g'.gate.indicator.current = g.gate.indicator.current ∧
    ∀ r ∈ g'.inside, (Placed.place r).2 = v → r ∈ g.inside) ?_ ?_ v count ⟨h, rfl, fun r hr _ => hr⟩
  · intro g₁ g₂ hgate hcontent ⟨haccounted, hcurrent, hinside⟩
    refine ⟨factual_accounted g₁ g₂ hgate hcontent haccounted, hgate ▸ hcurrent, ?_⟩
    rw [inside, hcontent]
    exact hinside
  · intro poll hp g₁ ⟨haccounted, hcurrent, hinside⟩
    have htraffic := hpolls poll hp g₁
    refine ⟨htraffic.accounted haccounted, htraffic.current_eq.trans hcurrent, ?_⟩
    intro r hr hplace
    exact hinside r (htraffic.mem_of_mem (hcurrent ▸ hv) hr hplace) hplace

/-- If no counter is crowded at the end of a wait, nobody inside is counted under the version
that was waited for. -/
theorem forall_ne_of_awaitEmpty (haccounted : g'.Accounted) (hroom : g'.Uncrowded)
    (h : g.awaitEmpty v polls count = (.ok rest, g')) :
    ∀ r ∈ g'.inside, (Placed.place r).2 ≠ v :=
  (haccounted.isEmpty_iff (hroom v)).mp (isEmpty_of_awaitEmpty h)

/-- If no counter is crowded after any number of the pauses of a toggle, none is at its switch of
versions. -/
theorem uncrowded_of_first (hroom : ∀ n, (g.toggle (polls.take n)).2.Uncrowded)
    (h : g.firstWait.awaitEmpty g.gate.indicator.current.other polls 0 = (.ok rest, g₁)) :
    g₁.Uncrowded := by
  obtain ⟨used, rfl, hused⟩ := exists_used_of_awaitEmpty h
  have hemptied := hused []
  rw [List.append_nil] at hemptied
  -- A toggle with these polls only has none for its second wait.
  have hcontent : (g.toggle used).2.content = g₁.content := by
    have htoggled := g.toggled_toggle used
    have hnil := awaitEmpty_nil g.gate.indicator.current 0
      (g₁.secondWait g.gate.indicator.current.other)
    generalize (g.toggle used).1 = outcome, (g.toggle used).2 = g' at htoggled ⊢
    cases htoggled with
    | first broken => cases hemptied.symm.trans broken
    | second emptied broken =>
      cases hemptied.symm.trans emptied
      rw [broken] at hnil
      exact hnil.2
    | both emptied drained =>
      cases hemptied.symm.trans emptied
      rw [drained] at hnil
      exact hnil.2
  have hplaces : (g.toggle used).2.places = g₁.places := by
    rw [places, inside, hcontent]
    rfl
  intro v slot
  have hslot := hroom used.length v slot
  rwa [List.take_left, hplaces] at hslot

/-- It is enough to look at the pauses that there are. -/
theorem uncrowded_toggle_take (h : ∀ n ≤ polls.length,
    (g.toggle (polls.take n)).2.inside.length < UInt64.size) (n : Nat) :
    (g.toggle (polls.take n)).2.Uncrowded := by
  rw [List.take_eq_take_min]
  exact uncrowded_of_length (h _ (Nat.min_le_right ..))

/-- A toggle that returns: the state `g₁` at its switch of versions, and what both waits have
done. -/
structure Returned (polls : List (Poll K C)) (g g₁ g' : Gated K C) : Prop where
  /-- The first wait ends, and the second one too. -/
  waits : ∃ rest rest', rest <:+ polls ∧
    g.firstWait.awaitEmpty g.gate.indicator.current.other polls 0 = (.ok rest, g₁) ∧
    (g₁.secondWait g.gate.indicator.current.other).awaitEmpty g.gate.indicator.current rest 0 =
      (.ok rest', g')
  /-- At the switch of versions all readers inside are counted under the version that is current
  still. -/
  switched : ∀ r ∈ g₁.inside, (Placed.place r).2 ≠ g.gate.indicator.current.other
  /-- In the end the other version is current. -/
  current : g'.gate.indicator.current = g.gate.indicator.current.other
  /-- In the end nobody is counted under the version that was current. -/
  empty : g'.gate.indicator.isEmpty g.gate.indicator.current = true
  /-- In the end all readers inside are counted under the version that is current then. -/
  newcomers : ∀ r ∈ g'.inside, (Placed.place r).2 = g.gate.indicator.current.other
  /-- In the end the counters are those of the readers inside. -/
  accounted : g'.Accounted

/-- What a toggle has done that returns, if its pauses bring readers that arrive and leave and no
counter is crowded after any of them. -/
theorem exists_returned (haccounted : g.Accounted) (hpolls : ∀ poll ∈ polls, Orderly poll)
    (hroom : ∀ n, (g.toggle (polls.take n)).2.Uncrowded)
    (h : g.toggle polls = (.ok (), g')) : ∃ g₁, Returned polls g g₁ g' := by
  have htoggled := g.toggled_toggle polls
  have hroom' := hroom polls.length
  rw [List.take_length] at hroom'
  rw [h] at htoggled hroom'
  cases htoggled with
  | @both rest g₁ rest' _ emptied drained =>
    obtain ⟨used, hsplit, -⟩ := exists_used_of_awaitEmpty emptied
    have hsuffix : rest <:+ polls := ⟨used, hsplit.symm⟩
    have hrest : ∀ poll ∈ rest, Orderly poll := fun poll hp => hpolls poll (hsuffix.subset hp)
    have hstart : g.firstWait.Accounted := haccounted
    have hfirst := awaitEmpty_orderly hpolls (Version.other_ne _) hstart 0
    simp only [firstWait_gate, emptied] at hfirst
    obtain ⟨haccounted₁, -, -⟩ := hfirst
    have hswitched : (g₁.secondWait g.gate.indicator.current.other).Accounted :=
      Indicator.Accounts.switch haccounted₁ _
    have hsecond := awaitEmpty_orderly hrest (Version.other_ne _).symm hswitched 0
    simp only [drained] at hsecond
    obtain ⟨haccounted', hcurrent', -⟩ := hsecond
    have hgone := forall_ne_of_awaitEmpty haccounted' hroom' drained
    exact ⟨g₁, {
      waits := ⟨rest, rest', hsuffix, emptied, drained⟩
      switched := forall_ne_of_awaitEmpty haccounted₁ (uncrowded_of_first hroom emptied) emptied
      current := hcurrent'
      empty := isEmpty_of_awaitEmpty drained
      newcomers := fun r hr => Version.eq_other_of_ne (hgone r hr)
      accounted := haccounted' }⟩

end LeftRight.Gated
