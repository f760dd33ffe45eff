import LeftRight.Proofs.Spans

/-!
# Settings and their texts

A setting is a field of a configuration with its value as it is written. Settings are listed by an
object, in any order and with other fields in between, or by an array if they are of the first
fields. Settings of different fields determine the configuration that has their values, and defaults
in the other fields.
-/

namespace LeftRight.Config

open Json

/-! ## Settings and their spellings -/

/-- A field of a configuration with its value as it is written. -/
inductive Setting where
  /-- The parallelism to plan for. -/
  | parallelism (value : Option Parallelism)
  /-- Slots per unit of parallelism. -/
  | slotsPerCore (value : UInt64)
  /-- The sleep between two polls. -/
  | drainSleep (value : Option Span)
  /-- The threshold of slow drains. -/
  | slowDrain (value : Option Span)
  deriving DecidableEq, Repr

/-- The fields in the order of their declaration. -/
def declared : List Field := [.parallelism, .slotsPerCore, .drainSleep, .slowDrain]

/-- The ways of writing a span that may be absent. -/
inductive WrittenOptional : Option Span → List Token → Prop where
  /-- The word for nothing stands for an absent span. -/
  | absent : WrittenOptional none [.null]
  /-- A span is written as it is. -/
  | present {s : Span} {value : List Token} (h : s.Written value) : WrittenOptional (some s) value

namespace Setting

/-- The field of a setting. -/
def field : Setting → Field
  | parallelism _ => .parallelism
  | slotsPerCore _ => .slotsPerCore
  | drainSleep _ => .drainSleep
  | slowDrain _ => .slowDrain

/-- The ways of writing the value of a setting. -/
def Written : Setting → List Token → Prop
  | parallelism p, value => value = optionTokens (fun p => [.ofNat p.val.toNat]) p
  | slotsPerCore w, value => value = [.ofNat w.toNat]
  | drainSleep s, value | slowDrain s, value => WrittenOptional s value

/-- The span in a setting, if there is one. -/
def span? : Setting → Option Span
  | drainSleep s | slowDrain s => s
  | parallelism _ | slotsPerCore _ => none

/-- Whether a setting holds a span that is too long. -/
def TooLong (s : Setting) : Prop := ∃ t ∈ s.span?, t.TooLong

/-- Whether a configuration has the value of a setting. -/
def Holds : Setting → Config → Prop
  | parallelism p, c => c.parallelism = p
  | slotsPerCore w, c => c.slotsPerCore = w
  | drainSleep s, c => Option.Rel Span.Means s c.drainSleep
  | slowDrain s, c => Option.Rel Span.Means s c.slowDrain

end Setting

/-- Whether two configurations have the same value in a field. -/
def AgreeAt : Field → Config → Config → Prop
  | .parallelism, c, c' => c.parallelism = c'.parallelism
  | .slotsPerCore, c, c' => c.slotsPerCore = c'.slotsPerCore
  | .drainSleep, c, c' => c.drainSleep = c'.drainSleep
  | .slowDrain, c, c' => c.slowDrain = c'.slowDrain

/-- Whether a configuration has the values of some settings, and defaults in all other fields. -/
structure IsOf (settings : List Setting) (c : Config) : Prop where
  /-- The configuration has the values of the settings. -/
  listed : ∀ s ∈ settings, s.Holds c
  /-- The other fields have their defaults. -/
  others : ∀ f, f ∉ settings.map Setting.field → AgreeAt f c {}

/-- Whether the members of an object list settings, with any other fields in between. -/
inductive Lists : List Setting → List Entry → Prop where
  /-- An object may be empty. -/
  | nil : Lists [] []
  /-- The key of a setting may be written in any way. -/
  | setting {s : Setting} {settings : List Setting} {key : List Piece} {value : List Token}
      {entries : List Entry} (hkey : Names key s.field.key.toList) (hvalue : s.Written value)
      (hrest : Lists settings entries) : Lists (s :: settings) ((key, value) :: entries)
  /-- Other fields have other keys, and any values. -/
  | unknown {name : List Char} {settings : List Setting} {key : List Piece} {value : List Token}
      {entries : List Entry} (hkey : Names key name) (hunknown : ∀ f : Field, name ≠ f.key.toList)
      (hvalue : IsValue value) (hrest : Lists settings entries) :
      Lists settings ((key, value) :: entries)

/-- The accepted texts of some settings. -/
inductive IsText (settings : List Setting) (text : String) : Prop where
  /-- An object lists the settings in any order. -/
  | object {listed : List Setting} {entries : List Entry} (horder : listed.Perm settings)
      (hlists : Lists listed entries) (hspells : Spells (braced entries) text.toList)
  /-- An array holds the values of the first fields in the order of their declaration. -/
  | array {listed : List Setting} {values : List (List Token)} (horder : listed.Perm settings)
      (hfirst : listed.map Setting.field <+: declared)
      (hvalues : List.Forall₂ Setting.Written listed values)
      (hspells : Spells (bracketed values) text.toList)

/-! ## Values of settings -/

/-- The duration of a span that may be absent, unless it is too long. -/
def optionalDuration? : Option Span → Option (Option Duration)
  | none => some none
  | some s => s.duration?.map some

theorem optionalDuration?_eq_none_iff {s : Option Span} :
    optionalDuration? s = none ↔ ∃ t ∈ s, t.TooLong := by
  cases s with
  | none => simp [optionalDuration?]
  | some s => simp [optionalDuration?, Span.duration?_eq_none_iff]

theorem optionalDuration?_eq_some_iff {s : Option Span} {d : Option Duration} :
    optionalDuration? s = some d ↔ Option.Rel Span.Means s d := by
  cases s with
  | none => cases d <;> simp [optionalDuration?]
  | some s => cases d <;> simp [optionalDuration?, Span.duration?_eq_some_iff]

theorem WrittenOptional.isValue {s : Option Span} {value : List Token}
    (h : WrittenOptional s value) : IsValue value := by
  cases h with
  | absent => exact .null
  | present h => exact h.isValue

theorem Setting.isValue_of_written {s : Setting} {value : List Token} (h : s.Written value) :
    IsValue value := by
  cases s with
  | parallelism p =>
    rw [h]
    cases p with
    | none => exact .null
    | some p => exact .number _
  | slotsPerCore w =>
    rw [h]
    exact .number _
  | drainSleep s => exact WrittenOptional.isValue h
  | slowDrain s => exact WrittenOptional.isValue h

theorem Lists.isValue {settings : List Setting} {entries : List Entry}
    (h : Lists settings entries) : ∀ e ∈ entries, IsValue e.2 := by
  induction h with
  | nil => simp
  | setting hkey hvalue hrest ih =>
    exact List.forall_mem_cons.mpr ⟨Setting.isValue_of_written hvalue, ih⟩
  | unknown hkey hunknown hvalue hrest ih => exact List.forall_mem_cons.mpr ⟨hvalue, ih⟩

/-! ## Settings in drafts -/

/-- Whether a field has been read. -/
def Draft.filled (f : Field) (d : Draft) : Bool :=
  match f with
  | .parallelism => d.parallelism.isSome
  | .slotsPerCore => d.slotsPerCore.isSome
  | .drainSleep => d.drainSleep.isSome
  | .slowDrain => d.slowDrain.isSome

/-- Put a setting into a draft, unless it is too long. -/
def Setting.put (s : Setting) (d : Draft) : Option Draft :=
  match s with
  | parallelism p => some { d with parallelism := some p }
  | slotsPerCore w => some { d with slotsPerCore := some w }
  | drainSleep s => (optionalDuration? s).map fun t => { d with drainSleep := some t }
  | slowDrain s => (optionalDuration? s).map fun t => { d with slowDrain := some t }

namespace Setting

variable {s t : Setting} {d d' : Draft}

theorem isSome_put (s : Setting) (d : Draft) : (s.put d).isSome = true ↔ ¬s.TooLong := by
  have hdurations : ∀ s : Option Span, (optionalDuration? s).isSome = true ↔ ¬∃ t ∈ s, t.TooLong :=
    fun s => by rw [← optionalDuration?_eq_none_iff, ← ne_eq, Option.isSome_iff_ne_none]
  cases s with
  | parallelism p => simp [put, TooLong, span?]
  | slotsPerCore w => simp [put, TooLong, span?]
  | drainSleep s => rw [put, Option.isSome_map, hdurations, TooLong, span?]
  | slowDrain s => rw [put, Option.isSome_map, hdurations, TooLong, span?]

/-- What becomes of a draft is told by the setting that is put into it. -/
theorem put_cases (h : s.put d = some d') :
    (∃ p, s = .parallelism p ∧ d' = { d with parallelism := some p }) ∨
      (∃ w, s = .slotsPerCore w ∧ d' = { d with slotsPerCore := some w }) ∨
      (∃ v t, s = .drainSleep v ∧ Option.Rel Span.Means v t ∧
        d' = { d with drainSleep := some t }) ∨
      ∃ v t, s = .slowDrain v ∧ Option.Rel Span.Means v t ∧
        d' = { d with slowDrain := some t } := by
  cases s with
  | parallelism p => exact Or.inl ⟨p, rfl, (Option.some.inj h).symm⟩
  | slotsPerCore w => exact Or.inr (Or.inl ⟨w, rfl, (Option.some.inj h).symm⟩)
  | drainSleep v =>
    obtain ⟨t, ht, rfl⟩ := Option.map_eq_some_iff.mp h
    exact Or.inr (Or.inr (Or.inl ⟨v, t, rfl, optionalDuration?_eq_some_iff.mp ht, rfl⟩))
  | slowDrain v =>
    obtain ⟨t, ht, rfl⟩ := Option.map_eq_some_iff.mp h
    exact Or.inr (Or.inr (Or.inr ⟨v, t, rfl, optionalDuration?_eq_some_iff.mp ht, rfl⟩))

/-- A setting fills its own field and no other. -/
theorem filled_put (h : s.put d = some d') (f : Field) :
    d'.filled f = true ↔ f = s.field ∨ d.filled f = true := by
  rcases put_cases h with ⟨p, rfl, rfl⟩ | ⟨w, rfl, rfl⟩ | ⟨v, t, rfl, -, rfl⟩ | ⟨v, t, rfl, -, rfl⟩
    <;> cases f <;> simp [Draft.filled, field]

/-- The draft with a setting comes to a configuration with its value. -/
theorem holds_put (h : s.put d = some d') : s.Holds d'.finish := by
  rcases put_cases h with
    ⟨p, rfl, rfl⟩ | ⟨w, rfl, rfl⟩ | ⟨v, t, rfl, ht, rfl⟩ | ⟨v, t, rfl, ht, rfl⟩
  · rfl
  · rfl
  · exact ht
  · exact ht

/-- A setting changes its own field only. -/
theorem agreeAt_put (h : s.put d = some d') {f : Field} (hf : f ≠ s.field) :
    AgreeAt f d.finish d'.finish := by
  rcases put_cases h with ⟨p, rfl, rfl⟩ | ⟨w, rfl, rfl⟩ | ⟨v, t, rfl, -, rfl⟩ | ⟨v, t, rfl, -, rfl⟩
    <;> cases f <;> simp_all [AgreeAt, Draft.finish, field]

/-- Whether a configuration has the value of a setting depends on the field of the setting only. -/
theorem Holds.congr {c c' : Config} (h : s.Holds c) (hagree : AgreeAt s.field c c') :
    s.Holds c' := by
  cases s with
  | parallelism p => exact hagree.symm.trans h
  | slotsPerCore w => exact hagree.symm.trans h
  | drainSleep s =>
    have hsame : c.drainSleep = c'.drainSleep := hagree
    rw [Holds, ← hsame]
    exact h
  | slowDrain s =>
    have hsame : c.slowDrain = c'.slowDrain := hagree
    rw [Holds, ← hsame]
    exact h

/-- A configuration has the value of a setting in one way only. -/
theorem Holds.agreeAt {c c' : Config} (h : s.Holds c) (h' : s.Holds c') :
    AgreeAt s.field c c' := by
  have hunique : ∀ {s : Option Span} {d d' : Option Duration}, Option.Rel Span.Means s d →
      Option.Rel Span.Means s d' → d = d' := fun hd hd' =>
    Option.some.inj ((optionalDuration?_eq_some_iff.mpr hd).symm.trans
      (optionalDuration?_eq_some_iff.mpr hd'))
  cases s with
  | parallelism p => exact Eq.trans h h'.symm
  | slotsPerCore w => exact Eq.trans h h'.symm
  | drainSleep s => exact hunique h h'
  | slowDrain s => exact hunique h h'

/-- No configuration has the value of a setting that is too long. -/
theorem Holds.fits {c : Config} (h : s.Holds c) : ¬s.TooLong := by
  have hduration : ∀ {v : Option Span} {d : Option Duration}, Option.Rel Span.Means v d →
      ¬∃ t ∈ v, t.TooLong := fun hv hlong => by
    rw [← optionalDuration?_eq_none_iff, optionalDuration?_eq_some_iff.mpr hv] at hlong
    cases hlong
  cases s with
  | parallelism p => simp [TooLong, span?]
  | slotsPerCore w => simp [TooLong, span?]
  | drainSleep v => exact hduration h
  | slowDrain v => exact hduration h

theorem holds_of_ne (h : s.put d = some d') (hne : t.field ≠ s.field) (ht : t.Holds d.finish) :
    t.Holds d'.finish := ht.congr (agreeAt_put h hne)

end Setting

/-- Settings are put into a draft of a configuration, which refuses those that are too long. -/
def settingForm : Form Draft Setting Field where
  field := Setting.field
  key := Field.key
  filled := Draft.filled
  put := Setting.put
  Fits s := ¬s.TooLong
  Holds s d := s.Holds d.finish
  isSome_put := Setting.isSome_put
  filled_put := Setting.filled_put
  holds_put := Setting.holds_put
  holds_of_ne := Setting.holds_of_ne

/-- There is one configuration with the values of some settings and defaults in the other fields. -/
theorem IsOf.unique {settings : List Setting} {c c' : Config} (h : IsOf settings c)
    (h' : IsOf settings c') : c = c' := by
  have hagree : ∀ f, AgreeAt f c c' := fun f => by
    by_cases hf : f ∈ settings.map Setting.field
    · obtain ⟨s, hs, rfl⟩ := List.mem_map.mp hf
      exact (h.listed s hs).agreeAt (h'.listed s hs)
    · have hdefault := h.others f hf
      have hdefault' := h'.others f hf
      cases f <;> exact Eq.trans hdefault hdefault'.symm
  obtain ⟨p, w, ds, sd⟩ := c
  obtain ⟨p', w', ds', sd'⟩ := c'
  cases hagree .parallelism
  cases hagree .slotsPerCore
  cases hagree .drainSleep
  cases hagree .slowDrain
  rfl

theorem agreeAt_finish_of_empty {d : Draft} {f : Field} (h : d.filled f = false) :
    AgreeAt f d.finish {} := by
  obtain ⟨p, w, ds, sd⟩ := d
  cases f <;> simp_all [Draft.filled, AgreeAt, Draft.finish]

/-- Nothing has been read at first. -/
theorem Draft.filled_empty (f : Field) : ({} : Draft).filled f = false := by cases f <;> rfl

/-- Settings of different fields that are not too long fill these fields, and come to the
configuration that is made of them. -/
theorem exists_fill_settings {settings : List Setting}
    (hdistinct : (settings.map Setting.field).Nodup) (hfits : ∀ s ∈ settings, ¬s.TooLong) :
    ∃ d, settingForm.fill settings {} = .ok d ∧ IsOf settings d.finish ∧
      ∀ f, f ∉ settings.map Setting.field → d.filled f = false := by
  obtain ⟨d, hfill, hholds, hfilled, -⟩ := settingForm.exists_fill (d := {}) hdistinct
    (fun s _ => Draft.filled_empty s.field) hfits
  have hempty : ∀ f, f ∉ settings.map Setting.field → d.filled f = false := fun f hf => by
    rw [Bool.eq_false_iff]
    intro hplace
    rcases (hfilled f).mp hplace with hlisted | hbefore
    · exact hf hlisted
    · exact Bool.eq_false_iff.mp (Draft.filled_empty f) hbefore
  exact ⟨d, hfill, ⟨hholds, fun f hf => agreeAt_finish_of_empty (hempty f hf)⟩, hempty⟩

end LeftRight.Config
