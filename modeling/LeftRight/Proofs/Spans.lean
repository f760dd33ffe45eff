import LeftRight.Proofs.Drafts

/-!
# Spans of time as they are written

A duration is written as an object of its seconds and nanoseconds in either order, or as an array of
both. Nanoseconds of a second or more are carried. All these texts are read as the same duration, or
refused together if the carry takes the seconds past a word.
-/

namespace LeftRight.Config

open Json

/-- A span of time as it is written. -/
structure Span where
  /-- Its seconds. -/
  seconds : UInt64
  /-- Its nanoseconds, of which there may be more than a second. -/
  nanos : UInt32
  deriving DecidableEq, Repr

/-- A part of a duration with its number. -/
inductive Amount where
  /-- So many seconds. -/
  | seconds (number : UInt64)
  /-- So many nanoseconds. -/
  | nanos (number : UInt32)
  deriving DecidableEq, Repr

namespace Amount

/-- The part that an amount is of. -/
def part : Amount → Part
  | seconds _ => .seconds
  | nanos _ => .nanos

/-- The number of an amount. -/
def number : Amount → Nat
  | seconds n => n.toNat
  | nanos n => n.toNat

/-- Whether amounts are listed by the members of an object. -/
def Listed (amounts : List Amount) (entries : List Entry) : Prop :=
  List.Forall₂ (fun a e => Names e.1 a.part.key.toList ∧ e.2 = [.ofNat a.number]) amounts entries

theorem isValue_of_listed {amounts : List Amount} {entries : List Entry}
    (h : Listed amounts entries) : IsValue (braced entries) := by
  have hvalues : ∀ e ∈ entries, IsValue e.2 := by
    induction h with
    | nil => simp
    | cons hmember hrest ih =>
      rw [List.forall_mem_cons, hmember.2]
      exact ⟨.number _, ih⟩
  exact .object hvalues

end Amount

namespace Span

/-- Whether the carry takes the seconds of a span past a word. -/
def TooLong (s : Span) : Prop :=
  UInt64.size ≤ s.seconds.toNat + s.nanos.toNat / Duration.perSecond

instance (s : Span) : Decidable s.TooLong := Nat.decLe _ _

/-- Whether a duration is as long as a span, with the nanoseconds carried into whole seconds. -/
def Means (s : Span) (d : Duration) : Prop :=
  d.seconds = s.seconds.toNat + s.nanos.toNat / Duration.perSecond ∧
    d.subsecond = s.nanos.toNat % Duration.perSecond

/-- The amounts of a span. -/
def amounts (s : Span) : List Amount := [.seconds s.seconds, .nanos s.nanos]

/-- The ways of writing a span. -/
inductive Written (s : Span) : List Token → Prop where
  /-- An object lists both amounts in any order. -/
  | object {amounts : List Amount} {entries : List Entry} (horder : amounts.Perm s.amounts)
      (hlisted : Amount.Listed amounts entries) : Written s (braced entries)
  /-- An array holds the seconds and then the nanoseconds. -/
  | array : Written s (bracketed [[.ofNat s.seconds.toNat], [.ofNat s.nanos.toNat]])

/-- The duration of a span, unless it is too long. -/
def duration? (s : Span) : Option Duration := Duration.ofParts? s.seconds.toNat s.nanos.toNat

theorem duration?_eq_none_iff {s : Span} : s.duration? = none ↔ s.TooLong :=
  Duration.ofParts?_eq_none_iff

/-- The duration of a span is the one that is as long. -/
theorem duration?_eq_some_iff {s : Span} {d : Duration} : s.duration? = some d ↔ s.Means d := by
  obtain ⟨nanos, hlong⟩ := d
  have hsum : s.duration? = some ⟨nanos, hlong⟩ ↔
      s.seconds.toNat * 1000000000 + s.nanos.toNat = nanos := by
    simp only [duration?, Duration.ofParts?, Duration.ofNanos?, Duration.perSecond,
      Option.dite_none_right_eq_some, Option.some.injEq, Duration.mk.injEq]
    constructor
    · rintro ⟨-, h⟩
      exact h
    · exact fun h => ⟨h ▸ hlong, h⟩
  rw [hsum, Means]
  simp only [Duration.seconds, Duration.subsecond, Duration.perSecond]
  omega

theorem Written.isValue {s : Span} {value : List Token} (h : s.Written value) : IsValue value := by
  cases h with
  | object horder hlisted => exact Amount.isValue_of_listed hlisted
  | array =>
    refine .array ?_
    simp only [List.forall_mem_cons]
    exact ⟨.number _, .number _, nofun⟩

end Span

/-! ## Parts of durations -/

/-- The number of a part, if it has been read. -/
def DurationDraft.number (d : DurationDraft) : Part → Option Nat
  | .seconds => d.seconds
  | .nanos => d.nanos

/-- A draft with another amount. -/
def DurationDraft.put (d : DurationDraft) : Amount → DurationDraft
  | .seconds n => { d with seconds := some n.toNat }
  | .nanos n => { d with nanos := some n.toNat }

/-- An amount changes its own part only. -/
theorem DurationDraft.number_put (d : DurationDraft) (a : Amount) (p : Part) :
    (d.put a).number p = if p = a.part then some a.number else d.number p := by
  cases a <;> cases p <;> rfl

theorem DurationDraft.filled_put {a : Amount} {d d' : DurationDraft}
    (h : some (d.put a) = some d') (p : Part) :
    (d'.number p).isSome = true ↔ p = a.part ∨ (d.number p).isSome = true := by
  cases h
  rw [number_put]
  split <;> simp [*]

theorem DurationDraft.number_of_eq {a : Amount} {d d' : DurationDraft}
    (h : some (d.put a) = some d') : d'.number a.part = some a.number := by
  cases h
  rw [number_put, if_pos rfl]

theorem DurationDraft.number_of_ne {a b : Amount} {d d' : DurationDraft}
    (h : some (d.put a) = some d') (hne : b.part ≠ a.part)
    (hb : d.number b.part = some b.number) : d'.number b.part = some b.number := by
  cases h
  rw [number_put, if_neg hne, hb]

/-- Amounts are put into a draft of a duration, which refuses none of them. -/
def amountForm : Form DurationDraft Amount Part where
  field := Amount.part
  key := Part.key
  filled p d := (d.number p).isSome
  put a d := some (d.put a)
  Fits _ := True
  Holds a d := d.number a.part = some a.number
  isSome_put _ _ := iff_of_true rfl trivial
  filled_put := DurationDraft.filled_put
  holds_put := DurationDraft.number_of_eq
  holds_of_ne := DurationDraft.number_of_ne

variable {amounts : List Amount} {entries : List Entry}

theorem yields_seconds (n : UInt64) : Yields readSeconds [.ofNat n.toNat] (.ok n.toNat) :=
  yields_nat n.toNat_lt (Nat.le_sub_one_of_lt n.toNat_lt)

theorem yields_nanos (n : UInt32) : Yields readNanos [.ofNat n.toNat] (.ok n.toNat) :=
  yields_nat (Nat.lt_trans n.toNat_lt (by decide)) (Nat.le_sub_one_of_lt n.toNat_lt)

/-- A member of a duration is read as its amount. -/
theorem yields_amount (a : Amount) (d : DurationDraft) :
    Yields (readDurationMember a.part.key d) [.colon, .ofNat a.number] (amountForm.take a d) := by
  intro rest
  cases a with
  | seconds n =>
    have hread := (yields_seconds n).into Part.seconds.key d.seconds
      (fun n => { d with seconds := some n }) rest
    rw [Amount.part, readDurationMember, if_pos rfl]
    exact hread
  | nanos n =>
    have hread := (yields_nanos n).into Part.nanos.key d.nanos
      (fun n => { d with nanos := some n }) rest
    rw [Amount.part, readDurationMember, if_neg (by decide), if_pos rfl]
    exact hread

/-- The members of a duration are read as the amounts that they list. -/
theorem fills_amounts (h : Amount.Listed amounts entries) (d : DurationDraft) :
    Fills readDurationMember d entries (amountForm.fill amounts d) := by
  induction h generalizing d with
  | nil => exact .nil d
  | @cons a e amounts entries hmember hrest ih =>
    obtain ⟨hkey, hvalue⟩ := hmember
    refine Form.fills_cons hkey ?_ fun d' _ => ih d'
    rw [hvalue, String.ofList_toList]
    exact yields_amount a d

/-- A duration is read from an object as from the draft that its members fill. -/
theorem Fills.readDuration {outcome : Except DecodeError DurationDraft}
    (h : Fills readDurationMember {} entries outcome) :
    Yields readDuration (braced entries) (outcome.bind DurationDraft.finish) := by
  intro rest
  have hmembers := h.readMembers rest
  rw [braced, List.cons_append, List.append_assoc]
  change (Config.readMembers readDurationMember true {} (_ ++ .closeBrace :: rest)).bind _ = _
  rw [hmembers]
  cases outcome with
  | error e => rfl
  | ok d =>
    cases hfinish : d.finish <;>
      simp [Except.map, Except.bind, bind, pure, hfinish, Except.pure]

/-- The two elements of an array are read and joined. This is stated of any readers, so that nothing
is computed from the bounds of the numbers that those of a duration take. -/
theorem join_elements {readFirst readSecond : Reader (Option Nat)}
    {join : Nat → Nat → Except DecodeError Duration} {ts₀ ts₁ ts₂ rest : List Token}
    {seconds nanos : Nat} (hfirst : readFirst ts₀ = .ok (some seconds, ts₁))
    (hsecond : readSecond ts₁ = .ok (some nanos, ts₂))
    (hend : expect .closeBracket ts₂ = .ok rest) :
    (do
      let (seconds, rest) ← readFirst ts₀
      let some seconds := seconds | throw (.invalidLength 0)
      let (nanos, rest) ← readSecond rest
      let some nanos := nanos | throw (.invalidLength 1)
      let d ← join seconds nanos
      return (d, ← expect .closeBracket rest) : Except DecodeError (Duration × List Token)) =
      (join seconds nanos).map fun d => (d, rest) := by
  simp only [hfirst, hsecond, bind, Except.bind]
  cases join seconds nanos with
  | error e => rfl
  | ok d => simp [hend, pure, Except.pure, Except.map]

/-- A duration is read from an array of its seconds and nanoseconds. -/
theorem yields_array {first second : List Token} {seconds nanos : Nat}
    (hseconds : Yields readSeconds first (.ok seconds))
    (hnanos : Yields readNanos second (.ok nanos))
    (hfirst : ∃ t us, first = t :: us ∧ t ≠ .closeBracket)
    (hsecond : ∃ t us, second = t :: us ∧ t ≠ .closeBracket) :
    Yields Config.readDuration (bracketed [first, second]) (durationOf seconds nanos) := by
  intro rest
  rw [bracketed_append, Config.readDuration]
  exact join_elements (hseconds.element hfirst true [second] rest)
    (hnanos.element hsecond false [] rest) rfl

theorem durationOf_eq (s : Span) :
    durationOf s.seconds.toNat s.nanos.toNat = s.duration?.elim (.error .overflow) .ok := by
  rw [durationOf, Span.duration?]

/-- Every way of writing a span is read as its duration, if it is not too long. -/
theorem Span.Written.yields {s : Span} {value : List Token} (h : s.Written value) :
    Yields Config.readDuration value (s.duration?.elim (.error .overflow) .ok) := by
  cases h with
  | @object amounts entries horder hlisted =>
    have hparts : (amounts.map Amount.part).Perm [.seconds, .nanos] := horder.map Amount.part
    obtain ⟨d, hfill, hholds, -⟩ := amountForm.exists_fill (d := {})
      (hparts.nodup_iff.mpr (by decide)) (fun a _ => by cases a <;> rfl) fun _ _ => trivial
    have hseconds : d.number .seconds = some s.seconds.toNat :=
      hholds (.seconds s.seconds) (horder.mem_iff.mpr (by simp [Span.amounts]))
    have hnanos : d.number .nanos = some s.nanos.toNat :=
      hholds (.nanos s.nanos) (horder.mem_iff.mpr (by simp [Span.amounts]))
    have hfinish : d.finish = s.duration?.elim (.error .overflow) .ok := by
      obtain ⟨seconds, nanos⟩ := d
      simp only [DurationDraft.number] at hseconds hnanos
      simp only [hseconds, hnanos, DurationDraft.finish, durationOf_eq]
    have hread := (fills_amounts hlisted {}).readDuration
    rw [hfill] at hread
    rw [← hfinish]
    exact hread
  | array =>
    rw [← durationOf_eq]
    exact yields_array (yields_seconds _) (yields_nanos _) ⟨_, _, rfl, nofun⟩ ⟨_, _, rfl, nofun⟩

/-- An object that lists an amount of some part a second time is refused. -/
theorem yields_repeated_amount (h : Amount.Listed amounts entries)
    (hrepeated : ¬(amounts.map Amount.part).Nodup) :
    ∃ before a after, amounts = before ++ a :: after ∧ (before.map Amount.part).Nodup ∧
      a.part ∈ before.map Amount.part ∧
      Yields Config.readDuration (braced entries) (.error (.duplicateField a.part.key)) := by
  obtain ⟨before, a, after, rfl, hbefore, ha⟩ := Form.exists_first_repeated hrepeated
  have hrefused := amountForm.fill_repeated (d := {}) hbefore (fun a _ => by cases a <;> rfl)
    (fun _ _ => trivial) ha after
  have hread := (fills_amounts h {}).readDuration
  rw [hrefused] at hread
  exact ⟨before, a, after, rfl, hbefore, ha, hread⟩

end LeftRight.Config
