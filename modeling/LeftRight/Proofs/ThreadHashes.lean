import LeftRight.Assigner
import Mathlib.Data.Int.ModEq
import Mathlib.Logic.Function.Basic

/-!
# Hashes of threads

The hash of a thread's id keeps all of the id. Multiplying by an odd constant, turning a word and
folding it onto itself can each be undone, so different ids have different hashes, and every word
is the hash of one id. Two threads can meet on a slot by the final remainder only.
-/

namespace LeftRight

/-! ## Folding words -/

/-- A word can be told from its fold by any shift that goes with `xor`, adds up and at last shifts
everything out. -/
theorem fold_bijective {width : Nat} {shift : BitVec width → Nat → BitVec width}
    (hxor : ∀ v w n, shift (v ^^^ w) n = shift v n ^^^ shift w n)
    (hadd : ∀ w m n, shift w (m + n) = shift (shift w m) n)
    (hout : ∀ w n, width ≤ n → shift w n = BitVec.ofNat width 0) {n : Nat} (hn : 0 < n) :
    Function.Bijective fun w => w ^^^ shift w n := by
  -- A fold of a fold goes twice as far, because what was shifted once cancels out.
  have htwice : ∀ m, (fun w => w ^^^ shift w m) ∘ (fun w => w ^^^ shift w m) =
      fun w => w ^^^ shift w (m + m) := by
    intro m
    funext w
    calc (w ^^^ shift w m) ^^^ shift (w ^^^ shift w m) m
        = (w ^^^ shift w m) ^^^ (shift w m ^^^ shift w (m + m)) := by rw [hxor, hadd]
      _ = w ^^^ ((shift w m ^^^ shift w m) ^^^ shift w (m + m)) := by
        simp only [BitVec.xor_assoc]
      _ = w ^^^ shift w (m + m) := by rw [BitVec.xor_self, BitVec.zero_xor]
  induction hm : width - n using Nat.strongRecOn generalizing n with
  | ind m ih =>
    by_cases hwide : width ≤ n
    · have hid : (fun w => w ^^^ shift w n) = id := by
        funext w
        rw [hout w n hwide, BitVec.xor_zero]
        rfl
      rw [hid]
      exact Function.bijective_id
    · have hfurther : Function.Bijective fun w => w ^^^ shift w (n + n) :=
        ih (width - (n + n)) (by omega) (by omega) rfl
      rw [← htwice n] at hfurther
      exact ⟨hfurther.injective.of_comp, hfurther.surjective.of_comp⟩

/-- A function of words is a bijection if it is one of their bits. -/
theorem bijective_of_toBitVec {f : UInt64 → UInt64} {g : BitVec 64 → BitVec 64}
    (hf : ∀ w, (f w).toBitVec = g w.toBitVec) (hg : Function.Bijective g) :
    Function.Bijective f := by
  constructor
  · intro v w h
    have hbits : g v.toBitVec = g w.toBitVec := by rw [← hf, ← hf, h]
    exact UInt64.toBitVec_inj.mp (hg.injective hbits)
  · intro w
    obtain ⟨v, hv⟩ := hg.surjective w.toBitVec
    exact ⟨⟨v⟩, UInt64.toBitVec_inj.mp ((hf ⟨v⟩).trans hv)⟩

/-- A word is shifted by fewer than 64 bits as its bits are. -/
theorem toBitVec_shift {n : UInt64} (h : n.toNat < 64) : (n.toBitVec % 64).toNat = n.toNat := by
  rw [BitVec.toNat_umod, UInt64.toNat_toBitVec]
  exact Nat.mod_eq_of_lt h

theorem foldLeft_bijective {n : UInt64} (hpos : 0 < n.toNat) (hlt : n.toNat < 64) :
    Function.Bijective (foldLeft n) := by
  have hbits : ∀ w, (foldLeft n w).toBitVec = w.toBitVec ^^^ w.toBitVec <<< n.toNat := fun w => by
    rw [foldLeft, UInt64.toBitVec_xor, UInt64.toBitVec_shiftLeft, BitVec.shiftLeft_eq',
      toBitVec_shift hlt]
  exact bijective_of_toBitVec hbits <| fold_bijective BitVec.shiftLeft_xor_distrib
    BitVec.shiftLeft_add (fun _ _ h => BitVec.shiftLeft_eq_zero h) hpos

theorem foldRight_bijective {n : UInt64} (hpos : 0 < n.toNat) (hlt : n.toNat < 64) :
    Function.Bijective (foldRight n) := by
  have hbits : ∀ w, (foldRight n w).toBitVec = w.toBitVec ^^^ w.toBitVec >>> n.toNat := fun w => by
    rw [foldRight, UInt64.toBitVec_xor, UInt64.toBitVec_shiftRight, BitVec.ushiftRight_eq',
      toBitVec_shift hlt]
  exact bijective_of_toBitVec hbits <| fold_bijective BitVec.ushiftRight_xor_distrib
    BitVec.shiftRight_add (fun _ _ h => BitVec.ushiftRight_eq_zero h) hpos

/-! ## Turning words and multiplying them -/

/-- What was turned is turned all the way round. -/
theorem rotateLeft_rotateLeft {n : Nat} (hpos : 0 < n) (hlt : n < 64) (w : BitVec 64) :
    (w.rotateLeft n).rotateLeft (64 - n) = w := by
  have hrest : 64 - n < 64 := by omega
  ext i hi
  rw [BitVec.getElem_rotateLeft]
  simp only [Nat.mod_eq_of_lt hrest]
  split
  · rw [BitVec.getElem_rotateLeft]
    simp only [Nat.mod_eq_of_lt hlt]
    split
    · omega
    · congr 1
      omega
  · rw [BitVec.getElem_rotateLeft]
    simp only [Nat.mod_eq_of_lt hlt]
    split
    · congr 1
      omega
    · omega

theorem toBitVec_turnLeft {n : UInt64} (hpos : 0 < n.toNat) (hlt : n.toNat < 64) (w : UInt64) :
    (turnLeft n w).toBitVec = w.toBitVec.rotateLeft n.toNat := by
  have hrest : (64 - n).toNat = 64 - n.toNat := by
    rw [UInt64.toNat_sub_of_le _ _ (UInt64.le_iff_toNat_le.mpr (Nat.le_of_lt hlt))]
    rfl
  rw [turnLeft, UInt64.toBitVec_or, UInt64.toBitVec_shiftLeft, UInt64.toBitVec_shiftRight,
    BitVec.shiftLeft_eq', BitVec.ushiftRight_eq', toBitVec_shift hlt,
    toBitVec_shift (by omega), hrest, BitVec.rotateLeft_def, Nat.mod_eq_of_lt hlt]

theorem turnLeft_bijective {n : UInt64} (hpos : 0 < n.toNat) (hlt : n.toNat < 64) :
    Function.Bijective (turnLeft n) := by
  refine bijective_of_toBitVec (g := fun w => w.rotateLeft n.toNat) (toBitVec_turnLeft hpos hlt) ?_
  refine Function.bijective_iff_has_inverse.mpr ⟨fun w => w.rotateLeft (64 - n.toNat), ?_, ?_⟩
  · exact rotateLeft_rotateLeft hpos hlt
  · intro w
    have hback := rotateLeft_rotateLeft (n := 64 - n.toNat) (by omega) (by omega) w
    rwa [Nat.sub_sub_self (Nat.le_of_lt hlt)] at hback

/-- A word can be told from its product with a constant that has an inverse. -/
theorem mul_bijective {c d : UInt64} (h : c * d = 1) : Function.Bijective (· * c) := by
  refine Function.bijective_iff_has_inverse.mpr ⟨(· * d), fun w => ?_, fun w => ?_⟩
  · change w * c * d = w
    rw [UInt64.mul_assoc, h, UInt64.mul_one]
  · change w * d * c = w
    rw [UInt64.mul_assoc, UInt64.mul_comm d, h, UInt64.mul_one]

/-! ## Hashes and slots -/

theorem threadHash_bijective : Function.Bijective threadHash := by
  have hproduct : Function.Bijective fun id : UInt64 => id * 0xf1357aea2e62a9c5 :=
    mul_bijective (d := 0x781494a55daaed0d) (by decide)
  have hturned := (turnLeft_bijective (n := 26) (by decide) (by decide)).comp hproduct
  have hfolded := (foldLeft_bijective (n := 21) (by decide) (by decide)).comp hturned
  have hagain := (foldRight_bijective (n := 35) (by decide) (by decide)).comp hfolded
  exact (foldLeft_bijective (n := 4) (by decide) (by decide)).comp hagain

/-- The number whose remainder is the slot of a thread. -/
def hashNumber (thread : Nat) : Nat := (threadHash (thread + 1).toUInt64).toNat

theorem hashed_slot {slots : Nat} (hslots : 0 < slots) (call thread : Nat) :
    Assigner.hashed.slot call thread slots = .ok (hashNumber thread % slots) :=
  if_neg (Nat.ne_of_gt hslots)

/-- Threads whose ids are words have one hash only if they are one thread. -/
theorem hashNumber_inj {thread thread' : Nat} (h : thread + 1 < UInt64.size)
    (h' : thread' + 1 < UInt64.size) :
    hashNumber thread = hashNumber thread' ↔ thread = thread' := by
  refine ⟨fun heq => ?_, congrArg hashNumber⟩
  have hword := threadHash_bijective.injective (UInt64.toNat_inj.mp heq)
  have hid := congrArg UInt64.toNat hword
  rw [UInt64.toNat_ofNat_of_lt' h, UInt64.toNat_ofNat_of_lt' h'] at hid
  exact Nat.succ_inj.mp hid

/-- Different ids have different hashes, and every word is the hash of an id. Two threads are
assigned to one slot exactly if their hashes differ by a multiple of the number of slots; for two
threads that multiple is never zero. -/
theorem hashes_tell_threads_apart :
    (∀ id id' : UInt64, id ≠ id' → threadHash id ≠ threadHash id') ∧
      Function.Bijective threadHash ∧
      ∀ slots thread thread' call call' : Nat, 0 < slots → thread + 1 < UInt64.size →
        thread' + 1 < UInt64.size → thread ≠ thread' →
          (Assigner.hashed.slot call thread slots = Assigner.hashed.slot call' thread' slots ↔
            ∃ m : ℤ, m ≠ 0 ∧ (hashNumber thread : ℤ) - hashNumber thread' = m * slots) := by
  refine ⟨fun id id' => threadHash_bijective.injective.ne, threadHash_bijective, ?_⟩
  intro slots thread thread' call call' hslots hthread hthread' hne
  have hapart : (hashNumber thread : ℤ) - hashNumber thread' ≠ 0 := fun hzero =>
    hne ((hashNumber_inj hthread hthread').mp (Int.ofNat_inj.mp (Int.sub_eq_zero.mp hzero)))
  rw [hashed_slot hslots, hashed_slot hslots, Except.ok.injEq]
  constructor
  · intro hsame
    obtain ⟨m, hm⟩ := Nat.modEq_iff_dvd.mp (Nat.ModEq.symm hsame)
    refine ⟨m, ?_, by rw [hm, Int.mul_comm]⟩
    rintro rfl
    exact hapart (by rw [hm, Int.mul_zero])
  · rintro ⟨m, -, hm⟩
    exact Nat.ModEq.symm (Nat.modEq_iff_dvd.mpr ⟨m, by rw [hm, Int.mul_comm]⟩)

/-- Threads 0 and 5 meet on slot 12 of sixteen, though their hashes differ. -/
theorem hashes_tell_threads_apart_meeting :
    (1 : UInt64) ≠ 6 ∧ threadHash 1 ≠ threadHash 6 ∧
      Assigner.hashed.slot 0 0 16 = .ok 12 ∧ Assigner.hashed.slot 0 5 16 = .ok 12 ∧
      ∃ m : ℤ, m ≠ 0 ∧ (hashNumber 0 : ℤ) - hashNumber 5 = m * (16 : ℕ) := by
  have hfirst : Assigner.hashed.slot 0 0 16 = .ok 12 := by
    rw [hashed_slot (by decide)]
    decide
  have hsixth : Assigner.hashed.slot 0 5 16 = .ok 12 := by
    rw [hashed_slot (by decide)]
    decide
  have hids : (1 : UInt64) ≠ 6 := by decide
  exact ⟨hids, hashes_tell_threads_apart.1 1 6 hids, hfirst, hsixth,
    (hashes_tell_threads_apart.2.2 16 0 5 0 0 (by decide) (by decide) (by decide) (by decide)).mp
      (hfirst.trans hsixth.symm)⟩

end LeftRight
