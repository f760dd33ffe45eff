import LeftRight.Config.Decoding
import LeftRight.Proofs.Values
import Mathlib.Data.List.Nodup

/-!
# Filling drafts

An object is read member by member into a draft. What comes of it is told by what each member does
to the draft: members in any order fill their own places, the first one whose place is already
filled is refused, and whatever stands behind a member that is refused is not read.
-/

namespace LeftRight.Config

open Json

/-! ## Reading members -/

/-- Whether a reader comes to an outcome by these tokens, whatever follows them. What it returns it
has read from exactly these tokens. -/
def Yields {α : Type} (read : Reader α) (ts : List Token) (outcome : Except DecodeError α) : Prop :=
  ∀ rest, read (ts ++ rest) = outcome.map fun a => (a, rest)

/-- Whether reading members one after another takes a draft to an outcome. -/
inductive Fills {σ : Type} (member : String → σ → Reader σ) :
    σ → List Entry → Except DecodeError σ → Prop where
  /-- Nothing is left to read. -/
  | nil (draft : σ) : Fills member draft [] (.ok draft)
  /-- A member is read, and then the others. -/
  | cons {draft next : σ} {outcome : Except DecodeError σ} {name : List Char} {e : Entry}
      {entries : List Entry} (hkey : Names e.1 name)
      (hread : Yields (member (String.ofList name) draft) (.colon :: e.2) (.ok next))
      (hrest : Fills member next entries outcome) : Fills member draft (e :: entries) outcome
  /-- A member is refused, and the others are not read. -/
  | stop {draft : σ} {error : DecodeError} {name : List Char} {e : Entry} {entries : List Entry}
      (hkey : Names e.1 name)
      (hread : Yields (member (String.ofList name) draft) (.colon :: e.2) (.error error)) :
      Fills member draft (e :: entries) (.error error)

section Members

variable {σ : Type} {member : String → σ → Reader σ} {draft : σ} {outcome : Except DecodeError σ}

/-- A member is read into the draft, after a comma unless it is the first one. -/
theorem readMembers_entry {name : List Char} {e : Entry} (hkey : Names e.1 name)
    (hread : Yields (member (String.ofList name) draft) (.colon :: e.2) outcome) (first : Bool)
    (rest : List Token) :
    readMembers member first draft ((if first then [] else [.comma]) ++ (e.tokens ++ rest)) =
      outcome.bind fun next => readMembers member false next rest := by
  have hvalue : member (String.ofList name) draft (.colon :: (e.2 ++ rest)) =
      outcome.map fun next => (next, rest) := hread rest
  have hname := joinPieces_of_names hkey
  cases outcome <;> cases first <;>
    simp [readMembers.eq_def member _ draft, Entry.tokens, expect, hname, hvalue, bind,
      Except.bind, Except.map, pure, Except.pure] <;> omega

/-- The members after the first one are read up to the end of the object. -/
theorem Fills.readMembers_further {entries : List Entry} (h : Fills member draft entries outcome)
    (rest : List Token) :
    readMembers member false draft
        ((entries.map Entry.tokens).flatMap (.comma :: ·) ++ .closeBrace :: rest) =
      outcome.map fun final => (final, rest) := by
  induction h with
  | nil draft =>
    rw [readMembers.eq_def]
    rfl
  | @cons _ _ _ _ e entries hkey hread hrest ih =>
    have hentry := readMembers_entry hkey hread false
      ((entries.map Entry.tokens).flatMap (.comma :: ·) ++ .closeBrace :: rest)
    simp only [List.map_cons, List.flatMap_cons, List.cons_append, List.append_assoc]
    exact hentry.trans ih
  | @stop _ _ _ e entries hkey hread =>
    have hentry := readMembers_entry hkey hread false
      ((entries.map Entry.tokens).flatMap (.comma :: ·) ++ .closeBrace :: rest)
    simp only [List.map_cons, List.flatMap_cons, List.cons_append, List.append_assoc]
    exact hentry

/-- All members of an object are read, once its brace is open. -/
theorem Fills.readMembers {entries : List Entry} (h : Fills member draft entries outcome)
    (rest : List Token) :
    readMembers member true draft (separated (entries.map Entry.tokens) ++ .closeBrace :: rest) =
      outcome.map fun final => (final, rest) := by
  cases h with
  | nil =>
    rw [readMembers.eq_def]
    rfl
  | @cons _ _ _ _ e entries hkey hread hrest =>
    have hentry := readMembers_entry hkey hread true
      ((entries.map Entry.tokens).flatMap (.comma :: ·) ++ .closeBrace :: rest)
    rw [List.map_cons, separated_cons, List.append_assoc]
    exact hentry.trans (hrest.readMembers_further rest)
  | @stop _ _ _ e entries hkey hread =>
    have hentry := readMembers_entry hkey hread true
      ((entries.map Entry.tokens).flatMap (.comma :: ·) ++ .closeBrace :: rest)
    rw [List.map_cons, separated_cons, List.append_assoc]
    exact hentry

/-- What comes of further members is told by the draft that the first ones fill. -/
theorem Fills.append {next : σ} {entries more : List Entry}
    (h : Fills member draft entries (.ok next)) (hmore : Fills member next more outcome) :
    Fills member draft (entries ++ more) outcome := by
  generalize hfirst : Except.ok next = first at h
  induction h with
  | nil draft =>
    cases hfirst
    exact hmore
  | cons hkey hread hrest ih => exact .cons hkey hread (ih hfirst)
  | stop hkey hread => cases hfirst

/-- The value of a member is read and put into its place, unless that is filled. -/
theorem Yields.into {α : Type} {read : Reader α} {ts : List Token} {outcome : Except DecodeError α}
    (h : Yields read ts outcome) (key : String) (place : Option α) (set : α → σ) :
    Yields (fun tokens => (readInto key place read tokens).map fun (a, rest) => (set a, rest))
      (.colon :: ts)
      (if place.isSome then .error (.duplicateField key) else outcome.map set) := by
  intro rest
  cases place with
  | some a => rfl
  | none =>
    change (read (ts ++ rest)).map _ = _
    rw [h rest]
    cases outcome <;> rfl

end Members

section Values

variable {α : Type} {read : Reader α} {ts : List Token} {outcome : Except DecodeError α}

/-- A natural number is read if it fits into a word and is not too large for its place. -/
theorem yields_nat {most n : Nat} (hword : n < UInt64.size) (hmost : n ≤ most) :
    Yields (readNat most) [.ofNat n] (.ok n) := fun rest => by
  simp [readNat, Token.ofNat, Numeral.magnitude_ofNat hword, hmost, Except.map]

theorem yields_word (w : UInt64) : Yields readWord [.ofNat w.toNat] (.ok w) := fun rest => by
  rw [readWord, yields_nat w.toNat_lt (Nat.le_sub_one_of_lt w.toNat_lt) rest]
  simp [Except.map]

theorem yields_parallelism (p : Parallelism) :
    Yields readParallelism [.ofNat p.val.toNat] (.ok p) := fun rest => by
  rw [readParallelism, yields_word p.val rest]
  simp [bind, Except.bind, Except.map, pure, Except.pure, Parallelism.ofWord?, p.property]

/-- The word for nothing is read as an absent value. -/
theorem yields_absent : Yields (readOption read) [.null] (.ok none) := fun _ => rfl

/-- A value that may be absent is read as it is, if it does not begin with the word for nothing. -/
theorem Yields.present (h : Yields read ts outcome) (hhead : ∃ t us, ts = t :: us ∧ t ≠ .null) :
    Yields (readOption read) ts (outcome.map some) := by
  intro rest
  obtain ⟨t, us, rfl, ht⟩ := hhead
  have hvalue := h rest
  rw [List.cons_append] at hvalue ⊢
  rw [readOption, hvalue]
  · cases outcome <;> rfl
  · rintro more heq
    exact ht (List.cons.inj heq).1

/-- What is left of an array, before its first element or behind some. -/
def remaining (first : Bool) (values : List (List Token)) (rest : List Token) : List Token :=
  (if first then separated values else values.flatMap (.comma :: ·)) ++ .closeBracket :: rest

theorem bracketed_append (values : List (List Token)) (rest : List Token) :
    bracketed values ++ rest = .openBracket :: remaining true values rest := by
  simp [bracketed, remaining]

/-- There is no element at the end of an array. -/
theorem readElement_end (first : Bool) (read : Reader α) (rest : List Token) :
    readElement first read (remaining first [] rest) = .ok (none, remaining false [] rest) := by
  cases first <;> rfl

/-- The next element of an array is read. -/
theorem Yields.element (h : Yields read ts outcome)
    (hhead : ∃ t us, ts = t :: us ∧ t ≠ .closeBracket) (first : Bool) (values : List (List Token))
    (rest : List Token) :
    readElement first read (remaining first (ts :: values) rest) =
      (outcome.map some).map fun a => (a, remaining false values rest) := by
  obtain ⟨t, us, rfl, ht⟩ := hhead
  have hvalue : read (t :: (us ++ remaining false values rest)) =
      outcome.map fun a => (a, remaining false values rest) := h _
  cases first with
  | true =>
    have htokens : remaining true ((t :: us) :: values) rest =
        t :: (us ++ remaining false values rest) := by
      simp [remaining, separated_cons]
    rw [htokens, readElement]
    · simp only [if_true, pure, Except.pure, bind, Except.bind, hvalue]
      cases outcome <;> rfl
    · rintro more heq
      exact ht (List.cons.inj heq).1
  | false =>
    have htokens : remaining false ((t :: us) :: values) rest =
        .comma :: t :: (us ++ remaining false values rest) := by
      simp [remaining]
    rw [htokens]
    change (read (t :: (us ++ remaining false values rest))).bind _ = _
    rw [hvalue]
    cases outcome <;> rfl

end Values

/-! ## Items and their places -/

/-- How items are put into a draft: each has a field, and the draft has a place for each field. An
item may be refused, which depends on the item only. -/
structure Form (σ ι φ : Type) where
  /-- The field of an item. -/
  field : ι → φ
  /-- The key of a field. -/
  key : φ → String
  /-- Whether the place of a field is filled. -/
  filled : φ → σ → Bool
  /-- Put an item into its place. -/
  put : ι → σ → Option σ
  /-- Whether an item is accepted. -/
  Fits : ι → Prop
  /-- Whether an item is in its place. -/
  Holds : ι → σ → Prop
  /-- Items that fit are accepted, and no others. -/
  isSome_put : ∀ i d, (put i d).isSome = true ↔ Fits i
  /-- An item fills its own place and no other. -/
  filled_put : ∀ {i d d'}, put i d = some d' → ∀ f, filled f d' = true ↔ f = field i ∨ filled f d
  /-- What was put is in its place. -/
  holds_put : ∀ {i d d'}, put i d = some d' → Holds i d'
  /-- Items of other fields stay where they are. -/
  holds_of_ne : ∀ {i j d d'}, put i d = some d' → field j ≠ field i → Holds j d → Holds j d'

namespace Form

variable {σ ι φ : Type} {F : Form σ ι φ} {i : ι} {items before after : List ι} {d : σ}

/-- Take an item, if its place is empty and it fits. -/
def take (F : Form σ ι φ) (i : ι) (d : σ) : Except DecodeError σ :=
  if F.filled (F.field i) d then .error (.duplicateField (F.key (F.field i)))
  else (F.put i d).elim (.error .overflow) .ok

/-- Take items one after another. -/
def fill (F : Form σ ι φ) : List ι → σ → Except DecodeError σ
  | [], d => .ok d
  | i :: items, d => (F.take i d).bind (F.fill items)

/-- A member that is read as an item is taken, and the others are read after it. -/
theorem fills_cons {member : String → σ → Reader σ} {name : List Char} {e : Entry}
    {entries : List Entry} (hkey : Names e.1 name)
    (hread : Yields (member (String.ofList name) d) (.colon :: e.2) (F.take i d))
    (hrest : ∀ d', F.take i d = .ok d' → Fills member d' entries (F.fill items d')) :
    Fills member d (e :: entries) (F.fill (i :: items) d) := by
  rw [fill]
  cases htake : F.take i d with
  | error error => exact .stop hkey (htake ▸ hread)
  | ok d' => exact .cons hkey (htake ▸ hread) (hrest d' htake)

theorem fill_append (items more : List ι) (d : σ) :
    F.fill (items ++ more) d = (F.fill items d).bind (F.fill more) := by
  induction items generalizing d with
  | nil => rfl
  | cons i items ih =>
    rw [List.cons_append, fill, fill]
    cases F.take i d with
    | error e => rfl
    | ok d' => exact ih d'

/-- An item that fits is taken if its place is empty. -/
theorem exists_take (hempty : F.filled (F.field i) d = false) (hfits : F.Fits i) :
    ∃ d', F.take i d = .ok d' ∧ F.put i d = some d' := by
  obtain ⟨d', hd'⟩ := Option.isSome_iff_exists.mp ((F.isSome_put i d).mpr hfits)
  exact ⟨d', by rw [take, hempty, hd']; rfl, hd'⟩

/-- What is taken was put into its place. -/
theorem put_of_take {d' : σ} (h : F.take i d = .ok d') : F.put i d = some d' := by
  rw [take] at h
  split at h
  · cases h
  · cases hput : F.put i d with
    | none =>
      rw [hput] at h
      cases h
    | some d₁ =>
      rw [hput] at h
      cases h
      rfl

/-- After one item the places of the other fields are as empty as before. -/
theorem empty_of_put {d' : σ} (hput : F.put i d = some d')
    (hdistinct : ((i :: items).map F.field).Nodup)
    (hempty : ∀ j ∈ i :: items, F.filled (F.field j) d = false) :
    (items.map F.field).Nodup ∧ ∀ j ∈ items, F.filled (F.field j) d' = false := by
  rw [List.map_cons, List.nodup_cons] at hdistinct
  refine ⟨hdistinct.2, fun j hj => Bool.eq_false_iff.mpr fun hfilled => ?_⟩
  rcases (F.filled_put hput _).mp hfilled with hsame | hfilled
  · exact hdistinct.1 (hsame ▸ List.mem_map_of_mem hj)
  · rw [hempty j (List.mem_cons_of_mem _ hj)] at hfilled
    cases hfilled

/-- Items of different fields that fit are all taken: each comes to its place, and no other places
are filled. -/
theorem exists_fill (hdistinct : (items.map F.field).Nodup)
    (hempty : ∀ i ∈ items, F.filled (F.field i) d = false) (hfits : ∀ i ∈ items, F.Fits i) :
    ∃ d', F.fill items d = .ok d' ∧ (∀ i ∈ items, F.Holds i d') ∧
      (∀ f, F.filled f d' = true ↔ f ∈ items.map F.field ∨ F.filled f d = true) ∧
      ∀ j, F.field j ∉ items.map F.field → F.Holds j d → F.Holds j d' := by
  induction items generalizing d with
  | nil => exact ⟨d, rfl, by simp, by simp, fun j _ hj => hj⟩
  | cons i items ih =>
    obtain ⟨d₁, htake, hput⟩ := exists_take (hempty i List.mem_cons_self)
      (hfits i List.mem_cons_self)
    obtain ⟨hlater, hempty₁⟩ := empty_of_put hput hdistinct hempty
    obtain ⟨d', hfill, hholds, hfilled, hkept⟩ :=
      ih hlater hempty₁ fun j hj => hfits j (List.mem_cons_of_mem _ hj)
    have hnot : F.field i ∉ items.map F.field := (List.nodup_cons.mp hdistinct).1
    refine ⟨d', by rw [fill, htake]; exact hfill, ?_, fun f => ?_, fun j hj hd => ?_⟩
    · rintro j hj
      rcases List.mem_cons.mp hj with rfl | hj
      · exact hkept j hnot (F.holds_put hput)
      · exact hholds j hj
    · rw [hfilled, F.filled_put hput, List.map_cons, List.mem_cons]
      tauto
    · rw [List.map_cons, List.mem_cons, not_or] at hj
      exact hkept j hj.2 (F.holds_of_ne hput hj.1 hd)

/-- If one of some items of different fields does not fit, this is what becomes of them. -/
theorem fill_overflow (hdistinct : (items.map F.field).Nodup)
    (hempty : ∀ i ∈ items, F.filled (F.field i) d = false) (hmisfit : ∃ i ∈ items, ¬F.Fits i) :
    F.fill items d = .error .overflow := by
  induction items generalizing d with
  | nil => simp at hmisfit
  | cons i items ih =>
    by_cases hi : F.Fits i
    · obtain ⟨d₁, htake, hput⟩ := exists_take (hempty i List.mem_cons_self) hi
      obtain ⟨hlater, hempty₁⟩ := empty_of_put hput hdistinct hempty
      have hmisfit' : ∃ j ∈ items, ¬F.Fits j := by
        obtain ⟨j, hj, hnot⟩ := hmisfit
        rcases List.mem_cons.mp hj with rfl | hj
        · exact absurd hi hnot
        · exact ⟨j, hj, hnot⟩
      rw [fill, htake]
      exact ih hlater hempty₁ hmisfit'
    · have hnone : F.put i d = none :=
        Option.isNone_iff_eq_none.mp <| by
          rw [← Option.not_isSome, Bool.not_eq_true', ← Bool.not_eq_true]
          exact fun hsome => hi ((F.isSome_put i d).mp hsome)
      rw [fill, take, hempty i List.mem_cons_self, hnone]
      rfl

/-- The first item whose field came before is refused, whatever comes after it. -/
theorem fill_repeated (hdistinct : (before.map F.field).Nodup)
    (hempty : ∀ i ∈ before, F.filled (F.field i) d = false) (hfits : ∀ i ∈ before, F.Fits i)
    (hrepeated : F.field i ∈ before.map F.field) (after : List ι) :
    F.fill (before ++ i :: after) d = .error (.duplicateField (F.key (F.field i))) := by
  obtain ⟨d', hfill, -, hfilled, -⟩ := exists_fill hdistinct hempty hfits
  have hplace : F.filled (F.field i) d' = true := (hfilled _).mpr (Or.inl hrepeated)
  rw [fill_append, hfill]
  change (F.take i d').bind (F.fill after) = _
  rw [take, if_pos hplace]
  rfl

/-- Where fields repeat, one of the items is the first whose field came before. -/
theorem exists_first_repeated {field : ι → φ} (h : ¬(items.map field).Nodup) :
    ∃ before i after, items = before ++ i :: after ∧ (before.map field).Nodup ∧
      field i ∈ before.map field := by
  induction items using List.reverseRecOn with
  | nil => simp at h
  | append_singleton items i ih =>
    by_cases hdistinct : (items.map field).Nodup
    · refine ⟨items, i, [], rfl, hdistinct, ?_⟩
      by_contra hnew
      refine h ?_
      rw [List.map_append, List.map_singleton, ← List.concat_eq_append]
      exact List.Nodup.concat hnew hdistinct
    · obtain ⟨before, j, after, rfl, hbefore, hj⟩ := ih hdistinct
      exact ⟨before, j, after ++ [i], by simp, hbefore, hj⟩

end Form

end LeftRight.Config
