import LeftRight.Proofs.Patience
import LeftRight.Proofs.Showing
import LeftRight.Proofs.Stranding

/-!
# Uninterrupted runs

A twin set does one thing after the other: a reader enters, looks or leaves without delay, and
others act during a write only when one of its polls was in vain. Each of these things is a run of
single steps, in which nobody else takes one: a write of its writer's steps, with a scan of the
counters for each poll. So the states of a set, whatever is done to it, are among those of its
system: the ones in which no reader is in the middle of entering, and no write is under way.
-/

namespace LeftRight.System

variable {S K : Type} {names : List Nat} {phase : WriterPhase K} {changes : List (Change K)}
  {s s' : System S K} {g g' : TwinSet S K}

section Writer

variable [OrderedSet S K] {change : Change K} {visible : Side} {previous : Version}
  {switched : Bool} {polls : List (Poll K (Twin S))}

theorem reaches_of_run {Allowed : Action K → Prop} {P : System S K → Prop}
    (hallowed : Allowed .advance) {n : Nat}
    (hrun : s.run (List.replicate n .advance) = some s') (h : P s') : s.Reaches Allowed P :=
  ⟨_, fun _ ha => List.eq_of_mem_replicate ha ▸ hallowed, s', hrun, h⟩

theorem step_of_draining {slot : Nat}
    (h : s.writer = .draining change visible previous switched slot) :
    s.step .advance =
      some { s with writer := s.drainStep change visible previous switched slot } := by
  rw [step, advance, h]

/-- A writer that finds counters at zero passes their slots. -/
theorem run_pass {k : Nat} (h : s.writer = .draining change visible previous switched 0)
    (hk : k < s.gate.indicator.size)
    (hzero : ∀ j < k, s.gate.indicator.count (scanned previous switched) j = 0) :
    s.run (List.replicate k .advance) =
      some { s with writer := .draining change visible previous switched k } := by
  induction k with
  | zero =>
    rw [← h]
    rfl
  | succ k ih =>
    have hbefore := ih (Nat.lt_of_succ_lt hk) fun j hj => hzero j (Nat.lt_succ_of_lt hj)
    have hstep : s.drainStep change visible previous switched k =
        .draining change visible previous switched (k + 1) :=
      drainStep_of_more (hzero k k.lt_succ_self) hk
    rw [List.replicate_succ']
    refine run_append_eq_some.mpr ⟨_, hbefore, ?_⟩
    rw [run_cons, step_of_draining rfl, ← hstep]
    rfl

/-- After a scan that was in vain the writer is where it was. -/
theorem run_scan_of_occupied (h : s.writer = .draining change visible previous switched 0)
    (hoccupied : ¬ s.gate.indicator.isEmpty (scanned previous switched) = true) :
    ∃ n, s.run (List.replicate (n + 1) .advance) = some s := by
  rw [Indicator.isEmpty_iff, not_forall] at hoccupied
  classical
  -- The scan comes to the first counter that is not zero.
  let k := Nat.find hoccupied
  have hk : s.gate.indicator.count (scanned previous switched) k ≠ 0 := Nat.find_spec hoccupied
  have hbefore : ∀ j < k, s.gate.indicator.count (scanned previous switched) j = 0 :=
    fun j hj => not_not.mp (Nat.find_min hoccupied hj)
  have hrange : k < s.gate.indicator.size := by
    by_contra hout
    refine hk ?_
    rw [Indicator.count, List.getElem?_eq_none (Nat.le_of_not_lt hout)]
    cases scanned previous switched <;> rfl
  have hstep : s.drainStep change visible previous switched k = s.writer :=
    (drainStep_of_occupied hk).trans h.symm
  refine ⟨k, ?_⟩
  rw [List.replicate_succ']
  refine run_append_eq_some.mpr ⟨_, run_pass h hrange hbefore, ?_⟩
  rw [run_cons, step_of_draining rfl]
  change some { s with writer := s.drainStep change visible previous switched k } = some s
  rw [hstep]

/-- What a writer goes on to when a wait has ended, or broken off. -/
def afterWait {α : Type} (change : Change K) (visible : Side) (previous : Version)
    (switched : Bool) : Except Fault α → WriterPhase K
  | .ok _ => if switched then .replaying change visible else .switching change visible previous
  | .error _ => .draining change visible previous switched 0

/-- A scan that finds all counters at zero ends the drain. -/
theorem run_scan_of_isEmpty (h : s.writer = .draining change visible previous switched 0)
    (hempty : s.gate.indicator.isEmpty (scanned previous switched) = true) :
    s.run (List.replicate s.gate.indicator.size .advance) = some { s with
      writer := if switched then .replaying change visible
        else .switching change visible previous } := by
  have hzero := Indicator.isEmpty_iff.mp hempty
  obtain ⟨last, hlast⟩ : ∃ last, s.gate.indicator.size = last + 1 :=
    Nat.exists_eq_succ_of_ne_zero (by simpa [Indicator.size] using s.gate.indicator.slots_ne_nil)
  have hpassed := run_pass h (by omega) fun j (_ : j < last) => hzero j
  have hstep : s.drainStep change visible previous switched last =
      if switched then .replaying change visible else .switching change visible previous :=
    drainStep_of_last (hzero last) hlast.le
  rw [hlast, List.replicate_succ']
  refine run_append_eq_some.mpr ⟨_, hpassed, ?_⟩
  rw [run_cons, step_of_draining rfl, ← hstep]
  rfl

/-- A poll that is in vain is a scan that is in vain, after which readers take their steps. -/
theorem IsSet.pause (h : IsSet (.draining change visible previous switched 0) changes g s)
    (hoccupied : ¬ g.gate.indicator.isEmpty (scanned previous switched) = true)
    (hvisits : g.Visits g') : s.Reaches (fun a => a = .advance ∨ a.IsReaders)
      (IsSet (.draining change visible previous switched 0) changes g') := by
  obtain ⟨names, hshows⟩ := id h
  rw [← hshows.gate] at hoccupied
  obtain ⟨n, hscan⟩ := run_scan_of_occupied hshows.writer hoccupied
  refine (reaches_of_run (.inl rfl) hscan h).trans fun s' h' => ?_
  exact (h'.visits hvisits).mono (fun _ => .inr) fun _ => id

/-- Steps that are taken while a writer waits: its own, and those of readers if it pauses. -/
def InWait (polls : List (Poll K (Twin S))) (a : Action K) : Prop :=
  a = .advance ∨ polls ≠ [] ∧ a.IsReaders

/-- A wait is a run of scans, between which readers take their steps. -/
theorem IsSet.awaitEmpty (hpolls : ∀ poll ∈ polls, TwinSet.Visiting poll)
    (h : IsSet (.draining change visible previous switched 0) changes g s) (count : Nat) :
    s.Reaches (InWait polls) (IsSet
      (afterWait change visible previous switched
        (g.awaitEmpty (scanned previous switched) polls count).1) changes
      (g.awaitEmpty (scanned previous switched) polls count).2) := by
  obtain ⟨v, hv⟩ : ∃ v, v = scanned previous switched := ⟨_, rfl⟩
  have hpaused {poll : Poll K (Twin S)} {rest : List (Poll K (Twin S))} (a : Action K)
      (ha : a = .advance ∨ a.IsReaders) : InWait (poll :: rest) a :=
    ha.imp_right fun hreads => ⟨List.cons_ne_nil poll rest, hreads⟩
  rw [← hv]
  fun_induction Gated.awaitEmpty v polls count g generalizing s with
  | case1 polls count g hempty =>
    obtain ⟨names, h⟩ := h
    rw [hv, ← h.gate] at hempty
    refine reaches_of_run (.inl rfl) (run_scan_of_isEmpty h.writer hempty) ⟨names, ?_⟩
    exact (h.setWriter _).congr (by simp) (by simp)
  | case2 count g hoccupied =>
    obtain ⟨names, h⟩ := h
    exact .refl ⟨names, h.congr rfl rfl⟩
  | case3 count g hoccupied poll rest fault g₁ hpoll =>
    have hvisits := hpolls poll List.mem_cons_self g
    rw [hpoll] at hvisits
    exact (h.pause (hv ▸ hoccupied) hvisits).mono hpaused fun _ => id
  | case4 count g hoccupied poll rest g₁ hpoll ih =>
    have hvisits := hpolls poll List.mem_cons_self g
    rw [hpoll] at hvisits
    refine ((h.pause (hv ▸ hoccupied) hvisits).mono hpaused fun _ => id).trans fun s' h' => ?_
    refine (ih (fun poll hp => hpolls poll (List.mem_cons_of_mem _ hp)) h').mono ?_ fun _ => id
    exact fun a ha => hpaused a (ha.imp_right And.right)

/-- The first wait of a toggle. -/
theorem IsSet.firstWait (hpolls : ∀ poll ∈ polls, TwinSet.Visiting poll)
    (h : IsSet (.toggling change visible) changes g s) :
    s.Reaches (InWait polls) (IsSet
      (afterWait change visible g.gate.indicator.current false
        (g.firstWait.awaitEmpty g.gate.indicator.current.other polls 0).1) changes
      (g.firstWait.awaitEmpty g.gate.indicator.current.other polls 0).2) := by
  have hbegun : s.Reaches (InWait polls) (IsSet
      (.draining change visible g.gate.indicator.current false 0) changes g.firstWait) := by
    obtain ⟨names, h⟩ := h
    refine .step (.inl rfl) ?_ ⟨names, (h.setWriter _).congr rfl rfl⟩
    rw [step, advance, h.writer, h.gate]
  exact hbegun.trans fun s' h' => h'.awaitEmpty hpolls 0

/-- The second wait of a toggle, after the switch of versions. -/
theorem IsSet.secondWait (hpolls : ∀ poll ∈ polls, TwinSet.Visiting poll)
    (h : IsSet (.switching change visible previous) changes g s) :
    s.Reaches (InWait polls) (IsSet
      (afterWait change visible previous true
        ((g.secondWait previous.other).awaitEmpty previous polls 0).1) changes
      ((g.secondWait previous.other).awaitEmpty previous polls 0).2) := by
  have hswitched : s.Reaches (InWait polls) (IsSet
      (.draining change visible previous true 0) changes (g.secondWait previous.other)) := by
    obtain ⟨names, h⟩ := h
    refine .step (.inl rfl) (by rw [step, advance, h.writer]) ⟨names, ?_⟩
    exact { h with gate := congrArg (Gate.switch _) h.gate, writer := rfl }
  exact hswitched.trans fun s' h' => h'.awaitEmpty hpolls 0

/-- How far a writer has come when a toggle returns or breaks off. -/
inductive Toggles (change : Change K) (visible : Side) : Except Fault Unit → WriterPhase K → Prop
  /-- It is about to change the other copy. -/
  | returned : Toggles change visible (.ok ()) (.replaying change visible)
  /-- It is in a drain. -/
  | broken (fault : Fault) (previous : Version) (switched : Bool) :
    Toggles change visible (.error fault) (.draining change visible previous switched 0)

/-- A toggle is two runs of scans, with the switch of versions between them. -/
theorem IsSet.toggle (hpolls : ∀ poll ∈ polls, TwinSet.Visiting poll)
    (h : IsSet (.toggling change visible) changes g s) :
    ∃ phase, Toggles change visible (g.toggle polls).1 phase ∧
      s.Reaches (InWait polls) (IsSet phase changes (g.toggle polls).2) := by
  have hfirst := h.firstWait hpolls
  have hsecond {rest : List (Poll K (Twin S))} {g₁ g₂ : TwinSet S K}
      {outcome : Except Fault (List (Poll K (Twin S)))}
      (hemptied : g.firstWait.awaitEmpty g.gate.indicator.current.other polls 0 = (.ok rest, g₁))
      (hdrain : (g₁.secondWait g.gate.indicator.current.other).awaitEmpty
        g.gate.indicator.current rest 0 = (outcome, g₂)) :
      s.Reaches (InWait polls) (IsSet
        (afterWait change visible g.gate.indicator.current true outcome) changes g₂) := by
    have hsuffix := TwinSet.suffix_of_awaitEmpty hemptied
    rw [hemptied] at hfirst
    refine hfirst.trans fun s' h' => ?_
    have hrest := h'.secondWait fun poll hp => hpolls poll (hsuffix.subset hp)
    rw [hdrain] at hrest
    refine hrest.mono (fun a ha => ha.imp_right fun ⟨hmore, hreads⟩ => ⟨?_, hreads⟩) fun _ => id
    rintro rfl
    exact hmore (List.suffix_nil.mp hsuffix)
  have htoggled := g.toggled_toggle polls
  generalize (g.toggle polls).1 = outcome, (g.toggle polls).2 = g' at htoggled ⊢
  cases htoggled with
  | first broken =>
    rw [broken] at hfirst
    exact ⟨_, .broken .., hfirst⟩
  | second emptied broken => exact ⟨_, .broken .., hsecond emptied broken⟩
  | both emptied drained => exact ⟨_, .returned, hsecond emptied drained⟩

/-- How a write ends, with the changes that it has published then and how far the writer has come:
its turn is over, unless it is in a drain of which a pause has broken off. -/
inductive Ends (change : Change K) (polls : List (Poll K (Twin S))) (g : TwinSet S K) :
    List (Change K) → WriterPhase K → Prop
  /-- The first change had no effect or broke off. -/
  | refused (ineffective : (TwinSet.mutate g.gate.selector.other change g).1 ≠ .ok true) :
    Ends change polls g [] .idle
  /-- A wait broke off. -/
  | interrupted {g₀ g₂ : TwinSet S K} {fault : Fault} (published : TwinSet.Published change g g₀)
      (broken : g₀.toggle polls = (.error fault, g₂)) (previous : Version) (switched : Bool) :
    Ends change polls g [change] (.draining change g.gate.selector previous switched 0)
  /-- Both copies were changed. -/
  | replayed {g₀ g₂ : TwinSet S K} (published : TwinSet.Published change g g₀)
      (waited : g₀.toggle polls = (.ok (), g₂)) : Ends change polls g [change] .idle

/-- The writer changes a copy. -/
theorem Shows.mutate (h : Shows names phase changes s g) (side : Side) (change : Change K)
    (phase' : WriterPhase K) : Shows names phase' changes
      { s with
        writer := phase'
        copies := s.copies.set side (OrderedSet.apply change (s.copies.get side)).2 }
      (TwinSet.mutate side change g).2 where
  gate := h.gate
  copies := by
    rw [h.copies]
    rfl
  looking := h.looking
  nodup := h.nodup
  outside := h.outside
  writer := rfl
  published := h.published

/-- A change that has no effect or breaks off ends the write. -/
theorem IsSet.refused (h : IsSet (.begun change) changes g s)
    (hineffective : (TwinSet.mutate g.gate.selector.other change g).1 ≠ .ok true) :
    ∃ s', s.run (List.replicate 2 .advance) = some s' ∧
      IsSet .idle changes (TwinSet.mutate g.gate.selector.other change g).2 s' := by
  obtain ⟨names, h⟩ := h
  have hchanged := h.mutate g.gate.selector.other change .idle
  have houtcome : (OrderedSet.apply change (s.copies.get g.gate.selector.other)).1 ≠ .ok true := by
    rw [h.copies]
    exact hineffective
  refine ⟨_, ?_, names, hchanged⟩
  rcases happlied : OrderedSet.apply change (s.copies.get g.gate.selector.other) with
    ⟨fault | _ | _, copy⟩ <;> rw [happlied] at houtcome
  · simp only [List.replicate, run_cons, step, advance, h.writer, Option.bind_some, h.gate,
      happlied]
    rfl
  · simp only [List.replicate, run_cons, step, advance, h.writer, Option.bind_some, h.gate,
      happlied]
    rfl
  · exact absurd rfl houtcome

/-- A change that has an effect is published. -/
theorem IsSet.published (h : IsSet (.begun change) changes g s) {g₀ : TwinSet S K}
    (hpublished : TwinSet.Published change g g₀) :
    ∃ s', s.run (List.replicate 3 .advance) = some s' ∧
      IsSet (.toggling change g.gate.selector) (changes ++ [change]) g₀ s' := by
  obtain ⟨names, h⟩ := h
  obtain ⟨g₁, hmutate, rfl⟩ := hpublished
  have hchanged := h.mutate g.gate.selector.other change (.toggling change g.gate.selector)
  rw [hmutate] at hchanged
  have houtcome : (OrderedSet.apply change (s.copies.get g.gate.selector.other)).1 = .ok true := by
    rw [h.copies]
    exact congrArg Prod.fst hmutate
  refine ⟨{ s with
    writer := .toggling change g.gate.selector
    copies := s.copies.set g.gate.selector.other
      (OrderedSet.apply change (s.copies.get g.gate.selector.other)).2
    gate := s.gate.publish g.gate.selector.other
    published := s.published ++ [change] }, ?_, names, ?_⟩
  · rcases happlied : OrderedSet.apply change (s.copies.get g.gate.selector.other) with
      ⟨outcome, copy⟩
    rw [happlied] at houtcome
    obtain rfl : outcome = .ok true := houtcome
    simp only [List.replicate, run_cons, step, advance, h.writer, Option.bind_some, h.gate,
      happlied]
    rfl
  · exact { hchanged with
      gate := congrArg (Gate.publish _) hchanged.gate
      published := by rw [h.published] }

/-- The second change ends the write, whatever it comes to. -/
theorem IsSet.replay (h : IsSet (.replaying change visible) changes g s) :
    ∃ s', s.step .advance = some s' ∧
      IsSet .idle changes (TwinSet.mutate visible change g).2 s' := by
  obtain ⟨names, h⟩ := h
  exact ⟨_, by rw [step, advance, h.writer], names, h.mutate visible change .idle⟩

/-- Where nobody writes, a writer may begin. -/
theorem IsSet.start (h : IsSet .idle changes g s) (change : Change K) :
    ∃ s', s.step (.start change) = some s' ∧ IsSet (.begun change) changes g s' := by
  obtain ⟨names, h⟩ := h
  exact ⟨_, by rw [step, h.writer], names, h.setWriter (.begun change)⟩

/-- A write is a run of steps of its writer, between which readers take theirs if it pauses. -/
theorem IsSet.write (hpolls : ∀ poll ∈ polls, TwinSet.Visiting poll)
    (h : IsSet (.begun change) changes g s) :
    ∃ published phase, Ends change polls g published phase ∧
      s.Reaches (InWait polls) (IsSet phase (changes ++ published)
        (TwinSet.write change polls g).2) := by
  have htoggled {g₀ : TwinSet S K} (hpublished : TwinSet.Published change g g₀) :
      ∃ phase, Toggles change g.gate.selector (g₀.toggle polls).1 phase ∧
        s.Reaches (InWait polls) (IsSet phase (changes ++ [change]) (g₀.toggle polls).2) := by
    obtain ⟨s₁, hrun, h₁⟩ := h.published hpublished
    obtain ⟨phase, htoggles, hreaches⟩ := h₁.toggle hpolls
    refine ⟨phase, htoggles, (reaches_of_run (P := (· = s₁)) (.inl rfl) hrun rfl).trans ?_⟩
    rintro _ rfl
    exact hreaches
  have hproceeds := TwinSet.proceeds_write change polls g
  generalize TwinSet.write change polls g = result at hproceeds ⊢
  cases hproceeds with
  | ineffective ineffective =>
    obtain ⟨s', hrun, h'⟩ := h.refused ineffective
    refine ⟨[], .idle, .refused ineffective, reaches_of_run (.inl rfl) hrun ?_⟩
    rwa [List.append_nil]
  | @interrupted g₀ g₂ fault published broken =>
    obtain ⟨phase, htoggles, hreaches⟩ := htoggled published
    rw [broken] at htoggles hreaches
    cases htoggles
    exact ⟨[change], _, .interrupted published broken .., hreaches⟩
  | @replayed g₀ g₂ published waited =>
    obtain ⟨phase, htoggles, hreaches⟩ := htoggled published
    rw [waited] at htoggles hreaches
    cases htoggles
    refine ⟨[change], .idle, .replayed published waited, hreaches.trans fun s' h' => ?_⟩
    obtain ⟨s'', hstep, h''⟩ := h'.replay
    exact .step (.inl rfl) hstep h''

/-- A write at whose polls nobody does anything is a run of steps of its writer alone. -/
theorem IsSet.write_alone (h : IsSet (.begun change) changes g s) :
    ∃ published phase n s', Ends change [] g published phase ∧
      s.run (List.replicate n .advance) = some s' ∧
      IsSet phase (changes ++ published) (TwinSet.write change [] g).2 s' := by
  have hnobody : ∀ poll ∈ ([] : List (Poll K (Twin S))), TwinSet.Visiting poll :=
    List.forall_mem_nil _
  obtain ⟨published, phase, hends, actions, hwaits, s', hrun, h'⟩ := h.write hnobody
  have halone : ∀ a ∈ actions, a = .advance :=
    fun a ha => (hwaits a ha).resolve_right fun hpaused => hpaused.1 rfl
  rw [List.eq_replicate_of_mem halone] at hrun
  exact ⟨published, phase, _, s', hends, hrun, h'⟩

end Writer

section Turns

variable [OrderedSet S K] {deed : TwinSet.Deed S K}

theorem play_append_eq_some {first second : List (Turn K)} {t : System S K} :
    s.play (first ++ second) = some t ↔ ∃ u, s.play first = some u ∧ u.play second = some t := by
  rw [play, List.foldlM_append]
  exact Option.bind_eq_some_iff

/-- A run is turns of which nobody breaks off a write. -/
theorem play_steps (actions : List (Action K)) (s : System S K) :
    s.play (actions.map .step) = s.run actions := by
  rw [play, List.foldlM_map]
  rfl

theorem Reaches.play {Allowed : Action K → Prop} {P : System S K → Prop}
    (h : s.Reaches Allowed P) : ∃ turns s', s.play turns = some s' ∧ P s' := by
  obtain ⟨actions, -, s', hrun, hP⟩ := h
  exact ⟨actions.map .step, s', (play_steps actions s).trans hrun, hP⟩

/-- What readers do, or a write, is done in turns, the last of which may be that a drain is given
up. -/
theorem IsSet.performed (h : IsSet .idle changes g s) (hdeed : deed.ByVisitors) :
    ∃ turns s' changes', s.play turns = some s' ∧ IsSet .idle changes' (deed.perform g) s' := by
  cases deed with
  | others act undisturbed =>
    obtain ⟨turns, s', hplay, h'⟩ := (h.visits (hdeed g)).play
    exact ⟨turns, s', changes, hplay, h'⟩
  | write change polls =>
    have hpolls : ∀ poll ∈ polls.map (·.val), TwinSet.Visiting poll := by
      intro poll hpoll
      obtain ⟨visiting, hmem, rfl⟩ := List.mem_map.mp hpoll
      exact hdeed visiting hmem
    obtain ⟨s₀, hstart, h₀⟩ := h.start change
    obtain ⟨published, phase, hends, hreaches⟩ := h₀.write hpolls
    obtain ⟨turns, s₁, hplay, h₁⟩ := hreaches.play
    have hbegun : s.play (.step (.start change) :: turns) = some s₁ := by
      rw [play, List.foldlM_cons]
      exact Option.bind_eq_some_iff.mpr ⟨s₀, hstart, hplay⟩
    cases hends with
    | refused => exact ⟨_, s₁, _, hbegun, h₁⟩
    | replayed => exact ⟨_, s₁, _, hbegun, h₁⟩
    | interrupted =>
      -- What is left of the write is given up.
      obtain ⟨names, h₁⟩ := h₁
      have hunwound : s₁.turn .unwind = some { s₁ with writer := .idle } := by
        rw [turn, unwind, h₁.writer]
      exact ⟨_, _, _, play_concat_eq_some.mpr ⟨s₁, hbegun, hunwound⟩, names, h₁.setWriter .idle⟩

/-- Whatever has been done to a set, one thing after the other, in turns its system comes to the
same: the same gate, the same copies, and the same readers inside. -/
theorem follow_played {deeds : List (TwinSet.Deed S K)} (hinside : g.content.inside = [])
    (hdeeds : ∀ deed ∈ deeds, deed.ByVisitors) :
    ∃ turns s changes, (ofSet g).play turns = some s ∧
      IsSet .idle changes (TwinSet.follow deeds g) s := by
  induction deeds using List.reverseRecOn with
  | nil => exact ⟨[], ofSet g, [], rfl, [], shows_ofSet hinside⟩
  | append_singleton deeds deed ih =>
    obtain ⟨turns, s, changes, hplay, h⟩ :=
      ih fun deed hmem => hdeeds deed (List.mem_append_left _ hmem)
    obtain ⟨more, s', changes', hplay', h'⟩ :=
      h.performed (hdeeds deed (List.mem_append_right _ (List.mem_singleton.mpr rfl)))
    rw [TwinSet.follow_concat]
    exact ⟨turns ++ more, s', changes', play_append_eq_some.mpr ⟨s, hplay, hplay'⟩, h'⟩

end Turns

end LeftRight.System
