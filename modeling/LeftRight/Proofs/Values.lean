import LeftRight.Json.Skip
import LeftRight.Proofs.Spelling

/-!
# Well-formed values

What a value is, as a sequence of tokens: arrays and objects hold values of any depth. A reader
that is not interested in a value skips exactly this value, and in every spelling a text of a value
is read as its tokens.
-/

namespace LeftRight.Json

/-! ## Arrays and objects -/

/-- Parts with commas between them. -/
def separated (parts : List (List Token)) : List Token := (parts.intersperse [.comma]).flatten

/-- An array of values. -/
def bracketed (values : List (List Token)) : List Token :=
  .openBracket :: (separated values ++ [.closeBracket])

/-- A member of an object: the pieces of its key, and its value. -/
abbrev Entry := List Piece × List Token

/-- The tokens of a member. -/
def Entry.tokens (e : Entry) : List Token := .string e.1 :: .colon :: e.2

/-- A key that is written as it is. -/
def plainKey (key : String) : List Piece := key.toList.map .char

theorem names_plainKey (key : String) : Names (plainKey key) key.toList := names_chars _

/-- An object of members. -/
def braced (entries : List Entry) : List Token :=
  .openBrace :: (separated (entries.map Entry.tokens) ++ [.closeBrace])

/-- Whether tokens make up a value. -/
inductive IsValue : List Token → Prop where
  /-- Nothing is a value. -/
  | null : IsValue [.null]
  /-- Truth values are values. -/
  | bool (value : Bool) : IsValue [.bool value]
  /-- Any number is a value, however large. -/
  | number (n : Numeral) : IsValue [.number n]
  /-- Any string is a value, even with halves of characters. -/
  | string (pieces : List Piece) : IsValue [.string pieces]
  /-- Arrays of values are values. -/
  | array {values : List (List Token)} (h : ∀ ts ∈ values, IsValue ts) : IsValue (bracketed values)
  /-- Objects whose members have values are values. Keys may repeat. -/
  | object {entries : List Entry} (h : ∀ e ∈ entries, IsValue e.2) : IsValue (braced entries)

/-- All parts but the first come after a comma. -/
theorem separated_cons (part : List Token) (parts : List (List Token)) :
    separated (part :: parts) = part ++ parts.flatMap (.comma :: ·) := by
  induction parts generalizing part with
  | nil => simp [separated]
  | cons second parts ih =>
    have hsecond := ih second
    rw [separated] at hsecond ⊢
    rw [List.intersperse_cons_cons, List.flatten_cons, List.flatten_cons, hsecond,
      List.flatMap_cons]
    rfl

/-- What holds of all parts and of a comma holds of all of it. -/
theorem all_separated {parts : List (List Token)} {p : Token → Bool} (hcomma : p .comma = true)
    (h : ∀ part ∈ parts, part.all p = true) : (separated parts).all p = true := by
  cases parts with
  | nil => rfl
  | cons part parts =>
    obtain ⟨hfirst, hmore⟩ := List.forall_mem_cons.mp h
    rw [separated_cons, List.all_append, hfirst, List.all_flatMap, Bool.true_and, List.all_eq_true]
    intro part hpart
    rw [List.all_cons, hcomma, hmore part hpart, Bool.true_and]

/-- A value begins with a token other than the end of an array. -/
theorem IsValue.exists_cons {ts : List Token} (h : IsValue ts) :
    ∃ t us, ts = t :: us ∧ t ≠ .closeBracket := by
  cases h <;> exact ⟨_, _, rfl, nofun⟩

/-! ## Skipping -/

section Skipping

variable {ts rest : List Token} {nests : List Nest}

/-- Whether the tokens are skipped as a value, wherever one may come. -/
def IsSkipped (ts : List Token) : Prop :=
  ∀ nests rest, skip .value nests (ts ++ rest) = skip .next nests rest ∧
    skip .valueOrEnd nests (ts ++ rest) = skip .next nests rest

/-- The elements of an array after the first one are skipped, with the end of the array. -/
theorem skip_elements {values : List (List Token)} (h : ∀ ts ∈ values, IsSkipped ts)
    (nests : List Nest) (rest : List Token) :
    skip .next (.array :: nests) (values.flatMap (.comma :: ·) ++ .closeBracket :: rest) =
      skip .next nests rest := by
  induction values with
  | nil => rfl
  | cons ts values ih =>
    have hfirst := (h ts List.mem_cons_self (.array :: nests)
      (values.flatMap (.comma :: ·) ++ .closeBracket :: rest)).1
    rw [List.flatMap_cons, List.cons_append, List.cons_append, List.append_assoc]
    change skip .value (.array :: nests) _ = _
    rw [hfirst]
    exact ih fun ts hts => h ts (List.mem_cons_of_mem _ hts)

/-- The members of an object after the first one are skipped, with the end of the object. -/
theorem skip_members {entries : List Entry} (h : ∀ e ∈ entries, IsSkipped e.2)
    (nests : List Nest) (rest : List Token) :
    skip .next (.object :: nests)
        ((entries.map Entry.tokens).flatMap (.comma :: ·) ++ .closeBrace :: rest) =
      skip .next nests rest := by
  induction entries with
  | nil => rfl
  | cons e entries ih =>
    have hfirst := (h e List.mem_cons_self (.object :: nests)
      ((entries.map Entry.tokens).flatMap (.comma :: ·) ++ .closeBrace :: rest)).1
    simp only [List.map_cons, List.flatMap_cons, Entry.tokens, List.cons_append,
      List.append_assoc]
    change skip .value (.object :: nests) _ = _
    rw [hfirst]
    exact ih fun e he => h e (List.mem_cons_of_mem _ he)

/-- Exactly a value is skipped. -/
theorem IsValue.isSkipped (h : IsValue ts) : IsSkipped ts := by
  induction h with
  | null => exact fun nests rest => ⟨rfl, rfl⟩
  | bool value => exact fun nests rest => ⟨rfl, rfl⟩
  | number n => exact fun nests rest => ⟨rfl, rfl⟩
  | string pieces => exact fun nests rest => ⟨rfl, rfl⟩
  | @array values h ih =>
    intro nests rest
    have hinside : skip .valueOrEnd (.array :: nests)
        (separated values ++ .closeBracket :: rest) = skip .next nests rest := by
      cases values with
      | nil => rfl
      | cons ts values =>
        rw [separated_cons, List.append_assoc, (ih ts List.mem_cons_self _ _).2]
        exact skip_elements (fun ts hts => ih ts (List.mem_cons_of_mem _ hts)) nests rest
    rw [bracketed, List.cons_append, List.append_assoc]
    exact ⟨hinside, hinside⟩
  | @object entries h ih =>
    intro nests rest
    have hinside : skip .keyOrEnd (.object :: nests)
        (separated (entries.map Entry.tokens) ++ .closeBrace :: rest) = skip .next nests rest := by
      cases entries with
      | nil => rfl
      | cons e entries =>
        rw [List.map_cons, separated_cons, Entry.tokens, List.append_assoc, List.cons_append,
          List.cons_append]
        change skip .value (.object :: nests) _ = _
        rw [(ih e List.mem_cons_self _ _).1]
        exact skip_members (fun e he => ih e (List.mem_cons_of_mem _ he)) nests rest
    rw [braced, List.cons_append, List.append_assoc]
    exact ⟨hinside, hinside⟩

theorem IsValue.skipValue_append (h : IsValue ts) (rest : List Token) :
    skipValue (ts ++ rest) = some rest := by
  have hnext : skip .next [] rest = some rest := by cases rest <;> rfl
  rw [skipValue, (h.isSkipped [] rest).1, hnext]

end Skipping

/-! ## Spellings of values -/

/-- Parts whose numbers are apart may be put together with commas. -/
theorem apart_separated {parts : List (List Token)} (h : ∀ ts ∈ parts, Apart ts) {t : Token}
    (ht : t.isNumber = false) : Apart (separated parts ++ [t]) := by
  cases parts with
  | nil => exact List.isChain_singleton t
  | cons part parts =>
    rw [separated_cons, List.append_assoc]
    induction parts generalizing part with
    | nil =>
      exact (apart_append_cons_iff ht).mpr ⟨h part List.mem_cons_self, List.isChain_nil⟩
    | cons second parts ih =>
      have hrest : Apart (second ++ (parts.flatMap (.comma :: ·) ++ [t])) :=
        ih second fun ts hts => h ts (List.mem_cons_of_mem _ hts)
      rw [List.flatMap_cons, List.cons_append, List.cons_append, List.append_assoc]
      exact (apart_append_cons_iff rfl).mpr ⟨h part List.mem_cons_self, hrest⟩

/-- In a value no two numbers stand next to each other. -/
theorem IsValue.apart {ts : List Token} (h : IsValue ts) : Apart ts := by
  induction h with
  | null => exact List.isChain_singleton _
  | bool value => exact List.isChain_singleton _
  | number n => exact List.isChain_singleton _
  | string pieces => exact List.isChain_singleton _
  | array h ih => exact (apart_cons_iff rfl).mpr (apart_separated ih rfl)
  | object h ih =>
    refine (apart_cons_iff rfl).mpr (apart_separated (fun ts hts => ?_) rfl)
    obtain ⟨e, he, rfl⟩ := List.mem_map.mp hts
    exact (apart_cons_iff rfl).mpr ((apart_cons_iff rfl).mpr (ih e he))

/-- In every spelling, the text of a value is read as its tokens. -/
theorem IsValue.tokens_of_spells {ts : List Token} (h : IsValue ts) {cs : List Char}
    (hspells : Spells ts cs) : tokens cs = ts := Json.tokens_of_spells hspells h.apart

end LeftRight.Json
