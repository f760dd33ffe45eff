import LeftRight.Proofs.Stored
import LeftRight.Workload

/-!
# Calls of several writers

A call looks at what is stored for its key, and a change alters that and nothing else. So if no two
writers use keys which the order does not tell apart, none notices the others: each is told what it
is told alone, and what is stored in the end does not depend on the order of the calls.
-/

namespace LeftRight

open Std

variable {W K : Type}

namespace Call

/-- The key that a call is about. -/
def key : Call K → K
  | change c => c.key
  | contains k => k

/-- What a call tells, if this is stored for its key. -/
def answer : Call K → Option K → Bool
  | change c, stored => c.takes stored
  | contains _, stored => stored.isSome

variable [Ord K]

/-- Whether a call is about this key, as far as the order tells. -/
def Touches (call : Call K) (k : K) : Prop := compare call.key k = .eq

instance (call : Call K) (k : K) : Decidable (call.Touches k) :=
  inferInstanceAs (Decidable (_ = _))

/-- What is stored for each key after a call. -/
def on : Call K → (K → Option K) → K → Option K
  | change c, stored => c.on stored
  | contains _, stored => stored

variable {call : Call K} {stored stored' : K → Option K} {k : K}

/-- A call leaves what it is not about. -/
theorem on_of_not_touches (h : ¬ call.Touches k) : call.on stored k = stored k := by
  cases call with
  | change c => exact Change.on_of_not_touches h
  | contains j => rfl

/-- What is stored for a key after a call depends on what was stored for it. -/
theorem on_congr (h : stored k = stored' k) : call.on stored k = call.on stored' k := by
  cases call with
  | change c => exact Change.on_congr h
  | contains j => exact h

end Call

variable {w : W} {calls calls' : List (W × Call K)} {stored stored' : K → Option K}

/-- The calls of a writer who is alone. -/
def alone (w : W) (program : List (Call K)) : List (W × Call K) := program.map (w, ·)

section Programs

variable [DecidableEq W] {program : W → List (Call K)}

/-- The calls that a writer makes, one after another. -/
def callsOf (w : W) (calls : List (W × Call K)) : List (Call K) :=
  calls.filterMap fun call => if call.1 = w then some call.2 else none

theorem mem_callsOf {call : Call K} : call ∈ callsOf w calls ↔ (w, call) ∈ calls := by
  rw [callsOf, List.mem_filterMap]
  constructor
  · rintro ⟨⟨v, other⟩, hmem, hsome⟩
    split at hsome
    · rename_i hv
      obtain rfl : v = w := hv
      obtain rfl := Option.some.inj hsome
      exact hmem
    · cases hsome
  · intro hmem
    exact ⟨(w, call), hmem, if_pos rfl⟩

theorem callsOf_cons_self (call : Call K) :
    callsOf w ((w, call) :: calls) = call :: callsOf w calls :=
  List.filterMap_cons_some (if_pos rfl)

theorem callsOf_cons_of_ne {v : W} (h : v ≠ w) (call : Call K) :
    callsOf w ((v, call) :: calls) = callsOf w calls :=
  List.filterMap_cons_none (if_neg h)

/-- Whether writers make the calls of their programs. -/
def Follows (program : W → List (Call K)) (calls : List (W × Call K)) : Prop :=
  ∀ w, callsOf w calls = program w

theorem Follows.mem (h : Follows program calls) {call : W × Call K} (hcall : call ∈ calls) :
    call.2 ∈ program call.1 := by
  rw [← h call.1]
  exact mem_callsOf.mpr hcall

end Programs

variable [Ord K]

/-- Whether no two programs are about the same key, as far as the order tells. -/
def Apart (program : W → List (Call K)) : Prop :=
  ∀ v w, v ≠ w → ∀ call ∈ program v, ∀ other ∈ program w, ¬ call.Touches other.key

/-- Programs of which no more is done are apart too. -/
theorem Apart.mono {program program' : W → List (Call K)} (h : Apart program)
    (hsubset : ∀ w, program' w ⊆ program w) : Apart program' :=
  fun v w hne call hcall other hother => h v w hne call (hsubset v hcall) other (hsubset w hother)

/-- What is stored for each key after some calls. -/
def storedAfter (calls : List (W × Call K)) (stored : K → Option K) : K → Option K :=
  calls.foldl (fun stored call => call.2.on stored) stored

/-- What no call is about stays. -/
theorem storedAfter_of_not_touches {k : K} (h : ∀ call ∈ calls, ¬ call.2.Touches k) :
    storedAfter calls stored k = stored k := by
  induction calls generalizing stored with
  | nil => rfl
  | cons call calls ih =>
    obtain ⟨hcall, hcalls⟩ := List.forall_mem_cons.mp h
    exact (ih hcalls).trans (Call.on_of_not_touches hcall)

variable [DecidableEq W]

/-- What a writer is told, one call after another. -/
def told (w : W) : List (W × Call K) → (K → Option K) → List Bool
  | [], _ => []
  | (v, call) :: calls, stored =>
    let later := told w calls (call.on stored)
    if v = w then call.answer (stored call.key) :: later else later

/-- A writer is told the same if it is alone and the same is stored for its keys, and nobody else
is about these. -/
theorem told_eq_told_alone
    (hstored : ∀ call ∈ callsOf w calls, stored call.key = stored' call.key)
    (hothers : ∀ call ∈ calls, call.1 ≠ w → ∀ own ∈ callsOf w calls, ¬ call.2.Touches own.key) :
    told w calls stored = told w (alone w (callsOf w calls)) stored' := by
  induction calls generalizing stored stored' with
  | nil => rfl
  | cons call calls ih =>
    obtain ⟨v, call⟩ := call
    obtain ⟨hother, hothers⟩ := List.forall_mem_cons.mp hothers
    by_cases hv : v = w
    · subst hv
      rw [callsOf_cons_self] at hstored hothers ⊢
      obtain ⟨hnow, hlater⟩ := List.forall_mem_cons.mp hstored
      simp only [told, alone, List.map_cons, if_true, hnow]
      congr 1
      exact ih (fun later hmem => Call.on_congr (hlater later hmem))
        fun call hcall hne later hmem => hothers call hcall hne later (List.mem_cons_of_mem _ hmem)
    · rw [callsOf_cons_of_ne hv] at hstored hother hothers ⊢
      simp only [told, if_neg hv]
      refine ih (fun later hmem => ?_) hothers
      rw [Call.on_of_not_touches (hother hv later hmem)]
      exact hstored later hmem

/-- For a key which only one writer is about, that is stored which this writer would leave if it
were alone. -/
theorem storedAfter_eq_alone {k : K} (hstored : stored k = stored' k)
    (hothers : ∀ call ∈ calls, call.1 ≠ w → ¬ call.2.Touches k) :
    storedAfter calls stored k = storedAfter (alone w (callsOf w calls)) stored' k := by
  induction calls generalizing stored stored' with
  | nil => exact hstored
  | cons call calls ih =>
    obtain ⟨v, call⟩ := call
    obtain ⟨hother, hothers⟩ := List.forall_mem_cons.mp hothers
    by_cases hv : v = w
    · subst hv
      rw [callsOf_cons_self]
      exact ih (Call.on_congr hstored) hothers
    · rw [callsOf_cons_of_ne hv]
      exact ih ((Call.on_of_not_touches (hother hv)).trans hstored) hothers

variable {program : W → List (Call K)}

/-- If programs are apart, each writer is told what it is told alone. -/
theorem Follows.told_eq (h : Follows program calls) (hapart : Apart program) (w : W)
    (stored : K → Option K) : told w calls stored = told w (alone w (program w)) stored := by
  rw [← h w]
  refine told_eq_told_alone (fun _ _ => rfl) fun call hcall hne own hown => ?_
  rw [h w] at hown
  exact hapart call.1 w hne call.2 (h.mem hcall) own hown

/-- If programs are apart, the order of their calls does not matter to what is stored. -/
theorem Follows.storedAfter_eq [TransOrd K] (h : Follows program calls)
    (h' : Follows program calls') (hapart : Apart program) (stored : K → Option K) :
    storedAfter calls stored = storedAfter calls' stored := by
  funext k
  by_cases htouched : ∃ call ∈ calls, call.2.Touches k
  · -- The key belongs to one writer only.
    obtain ⟨⟨w, own⟩, hmem, htouches⟩ := htouched
    have hown : own ∈ program w := h.mem hmem
    have howns {calls : List (W × Call K)} (h : Follows program calls) :
        ∀ call ∈ calls, call.1 ≠ w → ¬ call.2.Touches k := fun call hcall hne hother =>
      hapart call.1 w hne call.2 (h.mem hcall) own hown
        (TransCmp.eq_trans hother (OrientedCmp.eq_symm htouches))
    rw [storedAfter_eq_alone rfl (howns h), storedAfter_eq_alone rfl (howns h'), h w, h' w]
  · have hnone : ∀ call ∈ calls, ¬ call.2.Touches k := fun call hcall htouches =>
      htouched ⟨call, hcall, htouches⟩
    have hnone' : ∀ call ∈ calls', ¬ call.2.Touches k := by
      rintro ⟨w, call⟩ hcall
      have hmade := h'.mem hcall
      rw [← h w] at hmade
      exact hnone _ (mem_callsOf.mp hmade)
    rw [storedAfter_of_not_touches hnone, storedAfter_of_not_touches hnone']

end LeftRight
