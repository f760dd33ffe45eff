import LeftRight.Proofs.Readings

/-!
# Configurations as texts

The text of a configuration lists all of its fields in order, with durations in whole seconds and
the nanoseconds beyond them. So it is one of the texts of these settings, and it is read as the
configuration again.
-/

namespace LeftRight

namespace Config

open Json

/-! ## Configurations as settings -/

/-- A duration in whole seconds and nanoseconds beyond them. -/
def Span.ofDuration (d : Duration) : Span := ⟨.ofNat d.seconds, .ofNat d.subsecond⟩

theorem Span.toNat_seconds_ofDuration (d : Duration) :
    (ofDuration d).seconds.toNat = d.seconds := UInt64.toNat_ofNat_of_lt' d.seconds_lt

theorem Span.toNat_nanos_ofDuration (d : Duration) : (ofDuration d).nanos.toNat = d.subsecond :=
  UInt32.toNat_ofNat_of_lt' (Nat.lt_trans d.subsecond_lt (by decide))

/-- Nothing is carried in the span of a duration. -/
theorem Span.means_ofDuration (d : Duration) : (ofDuration d).Means d := by
  rw [Means, toNat_seconds_ofDuration, toNat_nanos_ofDuration, Nat.div_eq_of_lt d.subsecond_lt,
    Nat.mod_eq_of_lt d.subsecond_lt]
  exact ⟨rfl, rfl⟩

/-- All settings of a configuration, in the order of their declaration. -/
def settings (c : Config) : List Setting :=
  [.parallelism c.parallelism, .slotsPerCore c.slotsPerCore,
    .drainSleep (c.drainSleep.map .ofDuration), .slowDrain (c.slowDrain.map .ofDuration)]

theorem rel_ofDuration (d : Option Duration) :
    Option.Rel Span.Means (d.map Span.ofDuration) d := by
  cases d with
  | none => exact .none
  | some d => exact .some (Span.means_ofDuration d)

/-- A configuration is made of its own settings. -/
theorem isOf_settings (c : Config) : IsOf c.settings c where
  listed := by
    simp only [settings, List.forall_mem_cons]
    exact ⟨rfl, rfl, rel_ofDuration _, rel_ofDuration _, by simp⟩
  others f hf := absurd (by cases f <;> simp [settings, Setting.field]) hf

/-! ## The text of a configuration -/

/-- An object is written of its keys as they are. -/
theorem objectTokens_eq (members : List (String × List Token)) :
    objectTokens members = braced (members.map fun m => (plainKey m.1, m.2)) := by
  simp [objectTokens, braced, separated, Entry.tokens, Token.ofString, plainKey,
    Function.comp_def]

theorem written_durationTokens (d : Duration) :
    (Span.ofDuration d).Written (durationTokens d) := by
  rw [durationTokens, objectTokens_eq]
  refine .object (List.Perm.refl _)
    (.cons ⟨names_plainKey _, ?_⟩ (.cons ⟨names_plainKey _, ?_⟩ .nil))
  · rw [Amount.number, Span.toNat_seconds_ofDuration]
  · rw [Amount.number, Span.toNat_nanos_ofDuration]

theorem written_optionTokens (d : Option Duration) :
    WrittenOptional (d.map Span.ofDuration) (optionTokens durationTokens d) := by
  cases d with
  | none => exact .absent
  | some d => exact .present (written_durationTokens d)

/-- The number token of a natural number is plain. -/
theorem isPlain_ofNat (n : Nat) : (Token.ofNat n).isPlain = true := by
  simp [Token.isPlain, Token.ofNat, Numeral.ofNat, Nat.ofDigitChars_ten_toDigits]

/-- An object is plain if its keys and values are. -/
theorem isPlain_objectTokens {members : List (String × List Token)}
    (h : ∀ m ∈ members, (plainKey m.1).all Piece.isPlain = true ∧ m.2.all Token.isPlain = true) :
    (objectTokens members).all Token.isPlain = true := by
  have hmembers : ∀ part ∈ (members.map fun m => (plainKey m.1, m.2)).map Entry.tokens,
      part.all Token.isPlain = true := by
    simp only [List.mem_map, forall_exists_index, and_imp, forall_apply_eq_imp_iff₂]
    intro m hm
    obtain ⟨hkey, hvalue⟩ := h m hm
    rw [Entry.tokens, List.all_cons, List.all_cons, hvalue, Token.isPlain, hkey]
    rfl
  rw [objectTokens_eq, braced, List.all_cons, List.all_append, all_separated rfl hmembers]
  rfl

theorem isPlain_optionTokens {α : Type} {written : α → List Token}
    (h : ∀ a, (written a).all Token.isPlain = true) (o : Option α) :
    (optionTokens written o).all Token.isPlain = true := by
  cases o with
  | none => rfl
  | some a => exact h a

theorem isPlain_durationTokens (d : Duration) :
    (durationTokens d).all Token.isPlain = true := by
  refine isPlain_objectTokens ?_
  simp only [List.forall_mem_cons]
  exact ⟨⟨by decide, by simp [isPlain_ofNat]⟩, ⟨by decide, by simp [isPlain_ofNat]⟩, by simp⟩

theorem isPlain_tokens (c : Config) : c.tokens.all Token.isPlain = true := by
  have hduration (d : Option Duration) :
      (optionTokens durationTokens d).all Token.isPlain = true :=
    isPlain_optionTokens isPlain_durationTokens d
  refine isPlain_objectTokens ?_
  simp only [List.forall_mem_cons]
  exact ⟨⟨by decide, isPlain_optionTokens (fun p => by simp [isPlain_ofNat]) _⟩,
    ⟨by decide, by simp [isPlain_ofNat]⟩, ⟨by decide, hduration _⟩, ⟨by decide, hduration _⟩,
    by simp⟩

/-- The text of a configuration is one of the texts of its settings. -/
theorem isText_encode (c : Config) : IsText c.settings c.encode := by
  have hlists : Lists c.settings [
      (plainKey Field.parallelism.key, optionTokens (fun p => [.ofNat p.val.toNat]) c.parallelism),
      (plainKey Field.slotsPerCore.key, [.ofNat c.slotsPerCore.toNat]),
      (plainKey Field.drainSleep.key, optionTokens durationTokens c.drainSleep),
      (plainKey Field.slowDrain.key, optionTokens durationTokens c.slowDrain)] :=
    .setting (names_plainKey _) rfl <| .setting (names_plainKey _) rfl <|
      .setting (names_plainKey _) (written_optionTokens _) <|
      .setting (names_plainKey _) (written_optionTokens _) .nil
  have hspells : Spells c.tokens c.encode.toList :=
    spells_flatMap [] rfl (isPlain_tokens c) (by rw [encode, String.toList_ofList]; rfl)
  rw [tokens, objectTokens_eq] at hspells
  exact .object (List.Perm.refl _) hlists hspells

/-- The text of a configuration is read as this configuration. -/
theorem decode_encode (c : Config) : decode c.encode = .ok c := by
  have hdistinct : (c.settings.map Setting.field).Nodup := by
    simp [settings, Setting.field]
  have hfits : ∀ s ∈ c.settings, ¬s.TooLong := fun s hs => ((isOf_settings c).listed s hs).fits
  obtain ⟨c', hdecode, hc'⟩ := (isText_encode c).exists_decode_eq hdistinct hfits
  rw [hdecode, hc'.unique (isOf_settings c)]

example : decode (encode {}) = .ok {} ∧
    encode {} = "\x7b\"parallelism\":null,\"slots_per_core\":1,\"drain_sleep\":null," ++
      "\"slow_drain\":\x7b\"secs\":0,\"nanos\":1000000\x7d\x7d" :=
  ⟨decode_encode _, by decide +kernel⟩

/-! ## The values of configurations -/

/-- The values of a configuration as plain numbers, with a duration as its seconds and its
nanoseconds beyond them. -/
structure Values where
  /-- The parallelism to plan for. -/
  parallelism : Option Nat
  /-- The slots per unit of parallelism. -/
  slotsPerCore : Nat
  /-- The sleep between two polls. -/
  drainSleep : Option (Nat × Nat)
  /-- The threshold of slow drains. -/
  slowDrain : Option (Nat × Nat)
  deriving DecidableEq, Repr

/-- The values of a configuration. -/
def values (c : Config) : Values where
  parallelism := c.parallelism.map fun p => p.val.toNat
  slotsPerCore := c.slotsPerCore.toNat
  drainSleep := c.drainSleep.map fun d => (d.seconds, d.subsecond)
  slowDrain := c.slowDrain.map fun d => (d.seconds, d.subsecond)

/-- The ranges of the values: words, a parallelism other than zero, and less than a second of
nanoseconds. -/
structure Values.InRange (v : Values) : Prop where
  /-- A parallelism is a word other than zero. -/
  parallelism : ∀ n ∈ v.parallelism, 1 ≤ n ∧ n < UInt64.size
  /-- The slots are a word. -/
  slotsPerCore : v.slotsPerCore < UInt64.size
  /-- The seconds of a sleep are a word, and its nanoseconds less than a second. -/
  drainSleep : ∀ d ∈ v.drainSleep, d.1 < UInt64.size ∧ d.2 < Duration.perSecond
  /-- So are those of a threshold. -/
  slowDrain : ∀ d ∈ v.slowDrain, d.1 < UInt64.size ∧ d.2 < Duration.perSecond

theorem one_le_parallelism (p : Parallelism) : 1 ≤ p.val.toNat :=
  Nat.one_le_iff_ne_zero.mpr fun h => p.property (UInt64.toNat_inj.mp h)

/-- A configuration has no values but those in the ranges. -/
theorem values_inRange (c : Config) : c.values.InRange where
  parallelism := by
    simp only [values, Option.mem_def, Option.map_eq_some_iff]
    rintro _ ⟨p, -, rfl⟩
    exact ⟨one_le_parallelism p, p.val.toNat_lt⟩
  slotsPerCore := c.slotsPerCore.toNat_lt
  drainSleep := by
    simp only [values, Option.mem_def, Option.map_eq_some_iff]
    rintro _ ⟨d, -, rfl⟩
    exact ⟨d.seconds_lt, d.subsecond_lt⟩
  slowDrain := by
    simp only [values, Option.mem_def, Option.map_eq_some_iff]
    rintro _ ⟨d, -, rfl⟩
    exact ⟨d.seconds_lt, d.subsecond_lt⟩

/-- A value that may be absent comes from one, if each value comes from one. -/
theorem exists_map_eq {α β : Type} {f : α → β} {o : Option β} (h : ∀ b ∈ o, ∃ a, f a = b) :
    ∃ o' : Option α, o'.map f = o := by
  cases o with
  | none => exact ⟨none, rfl⟩
  | some b =>
    obtain ⟨a, ha⟩ := h b rfl
    exact ⟨some a, congrArg some ha⟩

theorem exists_duration {parts : Nat × Nat}
    (h : parts.1 < UInt64.size ∧ parts.2 < Duration.perSecond) :
    ∃ d : Duration, (d.seconds, d.subsecond) = parts := by
  obtain ⟨seconds, nanos⟩ := parts
  obtain ⟨hseconds, hnanos⟩ := h
  refine ⟨⟨seconds * Duration.perSecond + nanos, ?_⟩, ?_⟩
  · change nanos < 1000000000 at hnanos
    change seconds < 18446744073709551616 at hseconds
    change seconds * 1000000000 + nanos < 18446744073709551616 * 1000000000
    omega
  · change nanos < 1000000000 at hnanos
    simp only [Duration.seconds, Duration.subsecond, Duration.perSecond, Prod.mk.injEq]
    omega

theorem exists_parallelism {n : Nat} (h : 1 ≤ n ∧ n < UInt64.size) :
    ∃ p : Parallelism, p.val.toNat = n := by
  have hword : (UInt64.ofNat n).toNat = n := UInt64.toNat_ofNat_of_lt' h.2
  refine ⟨⟨UInt64.ofNat n, fun hzero => ?_⟩, hword⟩
  rw [hzero] at hword
  exact absurd h.1 (by rw [← hword]; decide)

/-- All values in the ranges are those of a configuration. -/
theorem exists_of_inRange {v : Values} (h : v.InRange) : ∃ c : Config, c.values = v := by
  obtain ⟨parallelism, hparallelism⟩ :=
    exists_map_eq fun n hn => exists_parallelism (h.parallelism n hn)
  obtain ⟨drainSleep, hdrain⟩ := exists_map_eq fun d hd => exists_duration (h.drainSleep d hd)
  obtain ⟨slowDrain, hslow⟩ := exists_map_eq fun d hd => exists_duration (h.slowDrain d hd)
  have hslots : (UInt64.ofNat v.slotsPerCore).toNat = v.slotsPerCore :=
    UInt64.toNat_ofNat_of_lt' h.slotsPerCore
  refine ⟨{ parallelism, slotsPerCore := UInt64.ofNat v.slotsPerCore, drainSleep, slowDrain }, ?_⟩
  rw [values, hparallelism, hslots, hdrain, hslow]

/-- Every configuration, and with it all values in the ranges, is written as a text from which it
is read again. Every text that is read at all gives values in the ranges, and the text of what was
read gives the same once more. -/
theorem round_trip :
    (∀ c : Config, decode c.encode = .ok c) ∧
      (∀ v : Values, v.InRange → ∃ c : Config, c.values = v) ∧
      ∀ (text : String) (c : Config), decode text = .ok c →
        c.values.InRange ∧ decode c.encode = decode text := by
  refine ⟨decode_encode, fun v hv => exists_of_inRange hv, fun text c hc => ?_⟩
  exact ⟨values_inRange c, (decode_encode c).trans hc.symm⟩

/-- Four threads, two slots for each of them, and a sleep of three seconds and five nanoseconds. -/
def carried : Config where
  parallelism := some ⟨4, four_ne_zero⟩
  slotsPerCore := 2
  drainSleep := some ⟨3000000005, threeSeconds_lt⟩
  slowDrain := none

/-- An array whose nanoseconds are carried is another text than the one that is written of it. -/
theorem round_trip_carried :
    decode "[4, 2, [1, 2000000005], null]" = .ok carried ∧
      carried.values = ⟨some 4, 2, some (3, 5), none⟩ ∧
      carried.encode ≠ "[4, 2, [1, 2000000005], null]" ∧
      decode carried.encode = decode "[4, 2, [1, 2000000005], null]" := by
  have hread : decode "[4, 2, [1, 2000000005], null]" = .ok carried := by
    have htold : (decode "[4, 2, [1, 2000000005], null]").toOption = some carried := by
      decide +kernel
    cases hdecode : decode "[4, 2, [1, 2000000005], null]" with
    | error e => rw [hdecode] at htold; cases htold
    | ok c => rw [hdecode] at htold; cases htold; rfl
  exact ⟨hread, by decide +kernel, by decide +kernel, (round_trip.2.2 _ _ hread).2⟩

end Config

end LeftRight
