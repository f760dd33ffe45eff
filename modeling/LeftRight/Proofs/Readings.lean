import LeftRight.Proofs.Settings

/-!
# Readings of configurations

Members of an object and elements of an array are read as the settings that they are of, and put
into a draft one after another. So all texts of the same settings are read as one configuration, or
refused together if a duration is too long. An object that repeats a field is refused.
-/

namespace LeftRight.Config

open Json

/-! ## Reading settings -/

variable {settings : List Setting} {entries : List Entry} {value : List Token} {d : Draft}

theorem yields_optional_parallelism (p : Option Parallelism) :
    Yields (readOption readParallelism)
      (optionTokens (fun p : Parallelism => [.ofNat p.val.toNat]) p) (.ok p) := by
  cases p with
  | none => exact yields_absent
  | some p => exact (yields_parallelism p).present ⟨_, _, rfl, nofun⟩

/-- A span that may be absent is read as its duration, if it is not too long. -/
theorem WrittenOptional.yields {s : Option Span} (h : WrittenOptional s value) :
    Yields (readOption readDuration) value
      ((optionalDuration? s).elim (.error .overflow) .ok) := by
  cases h with
  | absent => exact yields_absent
  | @present s value h =>
    have hread := h.yields.present (by cases h <;> exact ⟨_, _, rfl, nofun⟩)
    cases hduration : s.duration? <;> rw [hduration] at hread <;>
      simpa [optionalDuration?, hduration, Except.map] using hread

theorem yields_drainSleep {outcome : Except DecodeError (Option Duration)}
    (h : Yields (readOption readDuration) value outcome) (d : Draft) :
    Yields (readMember Field.drainSleep.key d) (.colon :: value)
      (if d.filled .drainSleep then .error (.duplicateField Field.drainSleep.key)
        else outcome.map fun t => { d with drainSleep := some t }) := by
  intro rest
  have hread := h.into Field.drainSleep.key d.drainSleep
    (fun t => { d with drainSleep := some t }) rest
  rw [readMember, if_neg (by decide), if_neg (by decide), if_pos rfl]
  exact hread

theorem yields_slowDrain {outcome : Except DecodeError (Option Duration)}
    (h : Yields (readOption readDuration) value outcome) (d : Draft) :
    Yields (readMember Field.slowDrain.key d) (.colon :: value)
      (if d.filled .slowDrain then .error (.duplicateField Field.slowDrain.key)
        else outcome.map fun t => { d with slowDrain := some t }) := by
  intro rest
  have hread := h.into Field.slowDrain.key d.slowDrain
    (fun t => { d with slowDrain := some t }) rest
  rw [readMember, if_neg (by decide), if_neg (by decide), if_neg (by decide), if_pos rfl]
  exact hread

/-- A member is read as its setting. -/
theorem yields_setting {s : Setting} (h : s.Written value) (d : Draft) :
    Yields (readMember s.field.key d) (.colon :: value) (settingForm.take s d) := by
  cases s with
  | parallelism p =>
    intro rest
    have hread := (yields_optional_parallelism p).into Field.parallelism.key d.parallelism
      (fun p => { d with parallelism := some p }) rest
    rw [Setting.field, readMember, if_pos rfl, h]
    exact hread
  | slotsPerCore w =>
    intro rest
    have hread := (yields_word w).into Field.slotsPerCore.key d.slotsPerCore
      (fun w => { d with slotsPerCore := some w }) rest
    rw [Setting.field, readMember, if_neg (by decide), if_pos rfl, h]
    exact hread
  | drainSleep s =>
    have hread := yields_drainSleep (WrittenOptional.yields h) d
    cases hduration : optionalDuration? s <;>
      simpa [Form.take, settingForm, Setting.field, Setting.put, hduration, Except.map] using hread
  | slowDrain s =>
    have hread := yields_slowDrain (WrittenOptional.yields h) d
    cases hduration : optionalDuration? s <;>
      simpa [Form.take, settingForm, Setting.field, Setting.put, hduration, Except.map] using hread

/-- A member with another key is skipped. -/
theorem yields_unknown {name : List Char} (hunknown : ∀ f : Field, name ≠ f.key.toList)
    (hvalue : IsValue value) (d : Draft) :
    Yields (readMember (String.ofList name) d) (.colon :: value) (.ok d) := by
  intro rest
  have hkeys : ∀ f : Field, String.ofList name ≠ f.key := fun f hf =>
    hunknown f (by rw [← hf, String.toList_ofList])
  have hskip := hvalue.skipValue_append rest
  rw [readMember, if_neg (hkeys .parallelism), if_neg (hkeys .slotsPerCore),
    if_neg (hkeys .drainSleep), if_neg (hkeys .slowDrain)]
  simp [expect, hskip, bind, Except.bind, pure, Except.pure, Except.map]

/-- The members of a configuration are read as the settings that they list. -/
theorem fills_settings (h : Lists settings entries) (d : Draft) :
    Fills readMember d entries (settingForm.fill settings d) := by
  induction h generalizing d with
  | nil => exact .nil d
  | @setting s settings key value entries hkey hvalue hrest ih =>
    refine Form.fills_cons hkey ?_ fun d' _ => ih d'
    rw [String.ofList_toList]
    exact yields_setting hvalue d
  | unknown hkey hunknown hvalue hrest ih =>
    exact .cons hkey (yields_unknown hunknown hvalue d) (ih d)

/-- A configuration is read from an object as from the draft that its members fill. -/
theorem Fills.read {outcome : Except DecodeError Draft} (h : Fills readMember {} entries outcome) :
    Yields read (braced entries) (outcome.map Draft.finish) := by
  intro rest
  have hmembers := h.readMembers rest
  rw [braced, List.cons_append, List.append_assoc]
  change (Config.readMembers readMember true {} (_ ++ .closeBrace :: rest)).bind _ = _
  rw [hmembers]
  cases outcome <;> rfl

/-- A text of a value is read to its end. -/
theorem decode_of_yields {outcome : Except DecodeError Config} {text : String}
    (h : Yields read value outcome) (hvalue : IsValue value) (hspells : Spells value text.toList) :
    decode text = outcome := by
  have hread := h []
  rw [List.append_nil] at hread
  rw [decode, hvalue.tokens_of_spells hspells, ofTokens, hread]
  cases outcome <;> rfl

/-! ## Arrays of settings -/

/-- Read the next element of an array, if there is one, as the value of a field. -/
def readField (f : Field) (first : Bool) (d : Draft) : Reader Draft := fun tokens =>
  match f with
  | .parallelism => (readElement first (readOption readParallelism) tokens).map
      fun (value, rest) => ({ d with parallelism := value }, rest)
  | .slotsPerCore => (readElement first readWord tokens).map
      fun (value, rest) => ({ d with slotsPerCore := value }, rest)
  | .drainSleep => (readElement first (readOption readDuration) tokens).map
      fun (value, rest) => ({ d with drainSleep := value }, rest)
  | .slowDrain => (readElement first (readOption readDuration) tokens).map
      fun (value, rest) => ({ d with slowDrain := value }, rest)

/-- Read the elements of an array as the values of some fields. -/
def readFields : List Field → Bool → Draft → Reader Draft
  | [], _, d, tokens => .ok (d, tokens)
  | f :: fields, first, d, tokens =>
    (readField f first d tokens).bind fun (d, rest) => readFields fields false d rest

/-- A configuration is read from an array field by field. -/
theorem read_openBracket (tokens : List Token) :
    read (.openBracket :: tokens) =
      (readFields declared true {} tokens).bind fun (d, rest) =>
        (expect .closeBracket rest).map fun rest => (d.finish, rest) := by
  rw [read]
  simp only [declared, readFields, readField, bind, Except.bind]
  -- The first element that cannot be read decides; without one, both come to the same draft.
  cases readElement true (readOption readParallelism) tokens with
  | error e => rfl
  | ok p =>
    simp only [Except.map]
    cases readElement false readWord p.2 with
    | error e => rfl
    | ok w =>
      simp only
      cases readElement false (readOption readDuration) w.2 with
      | error e => rfl
      | ok ds =>
        simp only
        cases readElement false (readOption readDuration) ds.2 with
        | error e => rfl
        | ok sd => rfl

/-- At the end of an array a field keeps its empty place. -/
theorem readField_end {f : Field} (hempty : d.filled f = false) (first : Bool)
    (rest : List Token) :
    readField f first d (remaining first [] rest) = .ok (d, remaining false [] rest) := by
  obtain ⟨p, w, ds, sd⟩ := d
  cases f <;> simp_all [readField, readElement_end, Except.map, Draft.filled]

/-- The next value of an array is put into the draft. -/
theorem readField_element {s : Setting} (h : s.Written value) (hempty : d.filled s.field = false)
    (first : Bool) (values : List (List Token)) (rest : List Token) :
    readField s.field first d (remaining first (value :: values) rest) =
      (settingForm.take s d).map fun d => (d, remaining false values rest) := by
  have hhead := (Setting.isValue_of_written h).exists_cons
  have htake : settingForm.take s d = (s.put d).elim (.error .overflow) .ok := by
    rw [Form.take, if_neg (by simpa [settingForm] using hempty)]
    rfl
  rw [htake]
  cases s with
  | parallelism p =>
    have hread := yields_optional_parallelism p
    rw [← (show value = _ from h)] at hread
    rw [Setting.field, readField, hread.element hhead first values rest]
    rfl
  | slotsPerCore w =>
    have hread := yields_word w
    rw [← (show value = _ from h)] at hread
    rw [Setting.field, readField, hread.element hhead first values rest]
    rfl
  | drainSleep s =>
    have hread := (WrittenOptional.yields h).element hhead first values rest
    rw [Setting.field, readField, hread, Setting.put]
    cases optionalDuration? s <;> rfl
  | slowDrain s =>
    have hread := (WrittenOptional.yields h).element hhead first values rest
    rw [Setting.field, readField, hread, Setting.put]
    cases optionalDuration? s <;> rfl

/-- The values of the first fields are read as the settings that they are of. -/
theorem readFields_of_written {fields : List Field} {values : List (List Token)}
    (hdistinct : fields.Nodup) (hempty : ∀ f ∈ fields, d.filled f = false)
    (hfirst : settings.map Setting.field <+: fields)
    (hvalues : List.Forall₂ Setting.Written settings values) (first : Bool) (rest : List Token) :
    readFields fields first d (remaining first values rest) =
      (settingForm.fill settings d).map fun d => (d, remaining false [] rest) := by
  -- The settings are those of the first fields, so they run out before the fields do.
  induction fields generalizing settings values d first with
  | nil =>
    cases List.map_eq_nil_iff.mp (List.prefix_nil.mp hfirst)
    cases hvalues
    cases first <;> rfl
  | cons f fields ih =>
    obtain ⟨hf, hlater⟩ := List.nodup_cons.mp hdistinct
    have hplace := hempty f List.mem_cons_self
    cases hvalues with
    | nil =>
      have hnone : ([] : List Setting).map Setting.field <+: fields := List.nil_prefix
      rw [readFields, readField_end hplace]
      exact ih hlater (fun g hg => hempty g (List.mem_cons_of_mem _ hg)) hnone .nil false
    | @cons s value settings values hvalue hvalues =>
      obtain ⟨rfl, hmore⟩ := List.cons_prefix_cons.mp hfirst
      rw [readFields, readField_element hvalue hplace, Form.fill]
      cases htake : settingForm.take s d with
      | error e => rfl
      | ok d' =>
        refine ih hlater (fun g hg => Bool.eq_false_iff.mpr fun hfilled => ?_) hmore hvalues
          false
        rcases (Setting.filled_put (Form.put_of_take htake) g).mp hfilled with rfl | hbefore
        · exact hf hg
        · rw [hempty g (List.mem_cons_of_mem _ hg)] at hbefore
          cases hbefore

/-- The values of the first fields are read from an array as the settings that they are of. -/
theorem yields_bracketed {values : List (List Token)}
    (hfirst : settings.map Setting.field <+: declared)
    (hvalues : List.Forall₂ Setting.Written settings values) :
    Yields read (bracketed values) ((settingForm.fill settings {}).map Draft.finish) := by
  intro rest
  have hread := readFields_of_written (d := {}) (by decide) (by decide) hfirst hvalues true rest
  rw [bracketed_append, read_openBracket, hread]
  cases settingForm.fill settings {} <;> rfl

/-! ## Texts of settings -/

theorem IsOf.perm {listed : List Setting} {c : Config} (h : IsOf listed c)
    (horder : listed.Perm settings) : IsOf settings c where
  listed s hs := h.listed s (horder.mem_iff.mpr hs)
  others f hf := h.others f fun hlisted => hf ((horder.map Setting.field).mem_iff.mp hlisted)

/-- A text is read as from the draft that its settings fill, in the order in which it lists them. -/
theorem IsText.decode_eq {text : String} (h : IsText settings text) :
    ∃ listed : List Setting, listed.Perm settings ∧
      decode text = (settingForm.fill listed {}).map Draft.finish := by
  cases h with
  | @object listed entries horder hlists hspells =>
    exact ⟨listed, horder, decode_of_yields (fills_settings hlists {}).read
      (.object hlists.isValue) hspells⟩
  | @array listed values horder hfirst hvalues hspells =>
    have hvalue : ∀ ts ∈ values, IsValue ts := by
      clear hfirst hspells horder
      induction hvalues with
      | nil => simp
      | cons hvalue hvalues ih =>
        exact List.forall_mem_cons.mpr ⟨Setting.isValue_of_written hvalue, ih⟩
    exact ⟨listed, horder, decode_of_yields (yields_bracketed hfirst hvalues) (.array hvalue)
      hspells⟩

/-- A text of settings of different fields is refused if one of them is too long. -/
theorem IsText.decode_eq_overflow {text : String} (h : IsText settings text)
    (hdistinct : (settings.map Setting.field).Nodup) (hlong : ∃ s ∈ settings, s.TooLong) :
    decode text = .error .overflow := by
  obtain ⟨listed, horder, hdecode⟩ := h.decode_eq
  obtain ⟨s, hs, hlong⟩ := hlong
  have hrefused := settingForm.fill_overflow (d := {})
    ((horder.map Setting.field).nodup_iff.mpr hdistinct) (fun s _ => Draft.filled_empty s.field)
    ⟨s, horder.mem_iff.mpr hs, not_not_intro hlong⟩
  rw [hdecode, hrefused]
  rfl

/-- A text of settings of different fields that are not too long is read as the configuration that
is made of them. -/
theorem IsText.exists_decode_eq {text : String} (h : IsText settings text)
    (hdistinct : (settings.map Setting.field).Nodup) (hfits : ∀ s ∈ settings, ¬s.TooLong) :
    ∃ c, decode text = .ok c ∧ IsOf settings c := by
  obtain ⟨listed, horder, hdecode⟩ := h.decode_eq
  obtain ⟨d, hfill, hd, -⟩ := exists_fill_settings
    ((horder.map Setting.field).nodup_iff.mpr hdistinct)
    fun s hs => hfits s (horder.mem_iff.mp hs)
  exact ⟨d.finish, by rw [hdecode, hfill]; rfl, hd.perm horder⟩

/-- An object that lists a field for the second time is refused. -/
theorem decode_of_repeated {text : String} (hlists : Lists settings entries)
    (hspells : Spells (braced entries) text.toList) (hfits : ∀ s ∈ settings, ¬s.TooLong)
    (hrepeated : ¬(settings.map Setting.field).Nodup) :
    ∃ before s after, settings = before ++ s :: after ∧ (before.map Setting.field).Nodup ∧
      s.field ∈ before.map Setting.field ∧
      decode text = .error (.duplicateField s.field.key) := by
  obtain ⟨before, s, after, rfl, hbefore, hs⟩ := Form.exists_first_repeated hrepeated
  have hrefused := settingForm.fill_repeated (d := {}) hbefore
    (fun s _ => Draft.filled_empty s.field) (fun s hs => hfits s (List.mem_append_left _ hs)) hs
    after
  refine ⟨before, s, after, rfl, hbefore, hs, ?_⟩
  rw [decode_of_yields (fills_settings hlists {}).read (.object hlists.isValue) hspells, hrefused]
  rfl

/-- The value of a duration is refused for what is wrong with its parts. -/
theorem yields_refused_duration {f : Field} (hf : f = .drainSleep ∨ f = .slowDrain)
    {error : DecodeError} (h : Yields (readOption readDuration) value (.error error))
    (hempty : d.filled f = false) :
    Yields (readMember f.key d) (.colon :: value) (.error error) := by
  rcases hf with rfl | rfl
  · have hread := yields_drainSleep h d
    rw [hempty] at hread
    exact hread
  · have hread := yields_slowDrain h d
    rw [hempty] at hread
    exact hread

/-- An object is refused if one of its durations lists a part for the second time. -/
theorem decode_of_repeated_part {f : Field} {key : List Piece} {front back parts : List Entry}
    {amounts : List Amount} {text : String} (hf : f = .drainSleep ∨ f = .slowDrain)
    (hfront : Lists settings front) (hdistinct : (settings.map Setting.field).Nodup)
    (hnew : f ∉ settings.map Setting.field) (hfits : ∀ s ∈ settings, ¬s.TooLong)
    (hkey : Names key f.key.toList) (hparts : Amount.Listed amounts parts)
    (hrepeated : ¬(amounts.map Amount.part).Nodup) (hback : ∀ e ∈ back, IsValue e.2)
    (hspells : Spells (braced (front ++ (key, braced parts) :: back)) text.toList) :
    ∃ before a after, amounts = before ++ a :: after ∧ (before.map Amount.part).Nodup ∧
      a.part ∈ before.map Amount.part ∧ decode text = .error (.duplicateField a.part.key) := by
  obtain ⟨before, a, after, hamounts, hbefore, ha, hduration⟩ :=
    yields_repeated_amount hparts hrepeated
  refine ⟨before, a, after, hamounts, hbefore, ha, ?_⟩
  obtain ⟨d, hfill, -, hempty⟩ := exists_fill_settings hdistinct hfits
  have hmember :=
    yields_refused_duration hf (hduration.present ⟨_, _, rfl, nofun⟩) (hempty f hnew)
  rw [← String.ofList_toList (s := f.key)] at hmember
  have hrefused : Fills readMember d ((key, braced parts) :: back)
      (.error (.duplicateField a.part.key)) := .stop hkey hmember
  have hfills := fills_settings hfront {}
  rw [hfill] at hfills
  have hread := (hfills.append hrefused).read
  have hvalues : ∀ e ∈ front ++ (key, braced parts) :: back, IsValue e.2 := by
    rw [List.forall_mem_append, List.forall_mem_cons]
    exact ⟨hfront.isValue, Amount.isValue_of_listed hparts, hback⟩
  exact decode_of_yields hread (.object hvalues) hspells

/-- All texts of the same settings are read alike, with any order, spelling, blanks and unknown
fields. They are refused if one of the settings is too long, and otherwise read as the configuration
with the values of the settings and defaults in all other fields. An object that repeats a field, or
a part of a duration, is refused for the first one that is repeated. -/
theorem spellings_read_alike :
    (∀ settings : List Setting, (settings.map Setting.field).Nodup →
      ∃ outcome, (∀ text, IsText settings text → decode text = outcome) ∧
        ((∃ s ∈ settings, s.TooLong) → outcome = .error .overflow) ∧
        ((∀ s ∈ settings, ¬s.TooLong) →
          ∃ c, outcome = .ok c ∧ ∀ c', IsOf settings c' ↔ c' = c)) ∧
      (∀ (settings : List Setting) (entries : List Entry) (text : String),
        Lists settings entries → Spells (braced entries) text.toList →
        (∀ s ∈ settings, ¬s.TooLong) → ¬(settings.map Setting.field).Nodup →
        ∃ before s after, settings = before ++ s :: after ∧ (before.map Setting.field).Nodup ∧
          s.field ∈ before.map Setting.field ∧
          decode text = .error (.duplicateField s.field.key)) ∧
      ∀ (settings : List Setting) (f : Field) (key : List Piece) (amounts : List Amount)
        (front back parts : List Entry) (text : String),
        Lists settings front → (settings.map Setting.field).Nodup →
        f ∉ settings.map Setting.field → (∀ s ∈ settings, ¬s.TooLong) →
        f = .drainSleep ∨ f = .slowDrain → Names key f.key.toList → Amount.Listed amounts parts →
        ¬(amounts.map Amount.part).Nodup → (∀ e ∈ back, IsValue e.2) →
        Spells (braced (front ++ (key, braced parts) :: back)) text.toList →
        ∃ before a after, amounts = before ++ a :: after ∧ (before.map Amount.part).Nodup ∧
          a.part ∈ before.map Amount.part ∧
          decode text = .error (.duplicateField a.part.key) := by
  refine ⟨fun settings hdistinct => ?_, ?_, ?_⟩
  · by_cases hlong : ∃ s ∈ settings, s.TooLong
    · refine ⟨.error .overflow, fun text h => h.decode_eq_overflow hdistinct hlong, fun _ => rfl,
        fun hfits => ?_⟩
      obtain ⟨s, hs, hlong⟩ := hlong
      exact absurd hlong (hfits s hs)
    · have hfits : ∀ s ∈ settings, ¬s.TooLong := fun s hs h => hlong ⟨s, hs, h⟩
      obtain ⟨d, -, hd, -⟩ := exists_fill_settings hdistinct hfits
      refine ⟨.ok d.finish, fun text h => ?_, fun h => absurd h hlong, fun _ => ?_⟩
      · obtain ⟨c, hdecode, hc⟩ := h.exists_decode_eq hdistinct hfits
        rw [hdecode, hc.unique hd]
      · exact ⟨d.finish, rfl, fun c' => ⟨fun hc' => hc'.unique hd, fun hc' => hc' ▸ hd⟩⟩
  · exact fun settings entries text hlists hspells hfits hrepeated =>
      decode_of_repeated hlists hspells hfits hrepeated
  · intro settings f key amounts front back parts text hfront hdistinct hnew hfits hf hkey hparts
      hrepeated hback hspells
    exact decode_of_repeated_part hf hfront hdistinct hnew hfits hkey hparts hrepeated hback hspells

theorem four_ne_zero : (4 : UInt64) ≠ 0 := by decide

theorem threeSeconds_lt : 3000000005 < UInt64.size * 1000000000 := by decide

/-- Four threads, two slots for each of them, and a sleep of three seconds and five nanoseconds. -/
def reordered : List Setting :=
  [.drainSleep (some ⟨1, 2000000005⟩), .parallelism (some ⟨4, four_ne_zero⟩), .slotsPerCore 2]

/-- The same settings as members of an object, with a field that is not known. -/
def reorderedEntries : List Entry :=
  [(plainKey "drain_sleep",
      braced [(plainKey "nanos", [.ofNat 2000000005]), (plainKey "secs", [.ofNat 1])]),
    (plainKey "note", bracketed [[.null], [.ofNat 7]]), (plainKey "parallelism", [.ofNat 4]),
    (plainKey "slots_per_core", [.ofNat 2])]

/-- The text of the object, with a blank before each token. -/
def reorderedText : String :=
  " \x7b \"drain_sleep\" : \x7b \"nanos\" : 2000000005 , \"secs\" : 1 \x7d , " ++
    "\"note\" : [ null , 7 ] , \"parallelism\" : 4 , \"slots_per_core\" : 2 \x7d"

theorem isText_reordered : IsText reordered reorderedText := by
  have hspan : Span.Written ⟨1, 2000000005⟩
      (braced [(plainKey "nanos", [.ofNat 2000000005]), (plainKey "secs", [.ofNat 1])]) :=
    @Span.Written.object _ [.nanos 2000000005, .seconds 1] _ (List.Perm.swap _ _ _)
      (.cons ⟨names_plainKey _, rfl⟩ (.cons ⟨names_plainKey _, rfl⟩ .nil))
  have hnote : IsValue (bracketed [[.null], [.ofNat 7]]) := .array (by
    simp only [List.forall_mem_cons]
    exact ⟨.null, .number _, nofun⟩)
  have hunknown : ∀ f : Field, "note".toList ≠ f.key.toList := fun f => by cases f <;> decide
  have hlists : Lists reordered reorderedEntries :=
    .setting (names_plainKey _) (.present hspan) <| .unknown (names_plainKey _) hunknown hnote <|
      .setting (names_plainKey _) rfl <| .setting (names_plainKey _) rfl .nil
  exact .object (List.Perm.refl _) hlists
    (spells_flatMap [' '] (by decide) (by decide +kernel) (by decide +kernel))

theorem isText_array : IsText reordered "[4,2,[1,2000000005]]" := by
  have horder : [.parallelism (some ⟨4, four_ne_zero⟩), .slotsPerCore 2,
      .drainSleep (some ⟨1, 2000000005⟩)].Perm reordered := by decide
  exact .array horder (by decide) (.cons rfl (.cons rfl (.cons (.present .array) .nil)))
    (spells_flatMap [] (by decide) (by decide +kernel) (by decide +kernel))

/-- Two texts of the same settings, with the carry of a second; a duration that the carry makes too
long; a field and a part of a duration that are repeated. -/
theorem spellings_read_alike_reordered :
    (reordered.map Setting.field).Nodup ∧ (∀ s ∈ reordered, ¬s.TooLong) ∧
      decode reorderedText = .ok {
        parallelism := some ⟨4, four_ne_zero⟩
        slotsPerCore := 2
        drainSleep := some ⟨3000000005, threeSeconds_lt⟩ } ∧
      decode "[4,2,[1,2000000005]]" = decode reorderedText ∧
      decode "\x7b\"slow_drain\":[18446744073709551615,1000000000]\x7d" = .error .overflow ∧
      decode "\x7b\"slots_per_core\":1,\"slots_per_core\":2\x7d" =
        .error (.duplicateField "slots_per_core") ∧
      decode "\x7b\"slow_drain\":\x7b\"secs\":1,\"secs\":2\x7d\x7d" =
        .error (.duplicateField "secs") := by
  have hdistinct : (reordered.map Setting.field).Nodup := by decide
  have hfits : ∀ s ∈ reordered, ¬s.TooLong := by
    simp [reordered, Setting.TooLong, Setting.span?, Span.TooLong, Duration.perSecond, UInt64.size]
  have hcarried : IsOf reordered {
        parallelism := some ⟨4, four_ne_zero⟩
        slotsPerCore := 2
        drainSleep := some ⟨3000000005, threeSeconds_lt⟩ } := by
    refine ⟨?_, fun f hf => ?_⟩
    · simp only [reordered, List.forall_mem_cons]
      exact ⟨.some ⟨by decide, by decide⟩, rfl, rfl, by simp⟩
    · cases f with
      | slowDrain => rfl
      | _ => exact absurd (by decide) hf
  refine ⟨hdistinct, hfits, ?_, ?_, ?_, ?_, ?_⟩
  · obtain ⟨outcome, halike, -, hread⟩ := spellings_read_alike.1 reordered hdistinct
    obtain ⟨c, rfl, hc⟩ := hread hfits
    rw [halike _ isText_reordered, ← (hc _).mp hcarried]
  · obtain ⟨outcome, halike, -, -⟩ := spellings_read_alike.1 reordered hdistinct
    rw [halike _ isText_reordered, halike _ isText_array]
  · obtain ⟨outcome, halike, hlong, -⟩ := spellings_read_alike.1
      [.slowDrain (some ⟨18446744073709551615, 1000000000⟩)] (by decide)
    have htext : IsText [.slowDrain (some ⟨18446744073709551615, 1000000000⟩)]
        "\x7b\"slow_drain\":[18446744073709551615,1000000000]\x7d" :=
      .object (List.Perm.refl _) (.setting (names_plainKey _) (.present .array) .nil)
        (spells_flatMap [] (by decide) (by decide +kernel) (by decide +kernel))
    rw [halike _ htext, hlong ⟨_, List.mem_cons_self, _, rfl, by decide⟩]
  · have hlists : Lists [.slotsPerCore 1, .slotsPerCore 2]
        [(plainKey "slots_per_core", [.ofNat 1]), (plainKey "slots_per_core", [.ofNat 2])] :=
      .setting (names_plainKey _) rfl (.setting (names_plainKey _) rfl .nil)
    obtain ⟨before, s, after, hs, -, -, hdecode⟩ := spellings_read_alike.2.1 _ _
      "\x7b\"slots_per_core\":1,\"slots_per_core\":2\x7d" hlists
      (spells_flatMap [] (by decide) (by decide +kernel) (by decide +kernel))
      (by simp [Setting.TooLong, Setting.span?]) (by decide)
    have hfield : ∀ s ∈ [Setting.slotsPerCore 1, .slotsPerCore 2], s.field = .slotsPerCore := by
      decide
    rw [hdecode, hfield s (hs ▸ List.mem_append_right _ List.mem_cons_self)]
    rfl
  · have hparts : Amount.Listed [.seconds 1, .seconds 2]
        [(plainKey "secs", [.ofNat 1]), (plainKey "secs", [.ofNat 2])] :=
      .cons ⟨names_plainKey _, rfl⟩ (.cons ⟨names_plainKey _, rfl⟩ .nil)
    obtain ⟨before, a, after, ha, -, -, hdecode⟩ := spellings_read_alike.2.2 [] .slowDrain
      (plainKey "slow_drain") _ [] [] _ "\x7b\"slow_drain\":\x7b\"secs\":1,\"secs\":2\x7d\x7d" .nil
      List.nodup_nil List.not_mem_nil (by simp) (Or.inr rfl) (names_plainKey _) hparts (by decide)
      (by simp) (spells_flatMap [] (by decide) (by decide +kernel) (by decide +kernel))
    have hpart : ∀ a ∈ [Amount.seconds 1, .seconds 2], a.part = .seconds := by decide
    rw [hdecode, hpart a (ha ▸ List.mem_append_right _ List.mem_cons_self)]
    rfl

end LeftRight.Config
