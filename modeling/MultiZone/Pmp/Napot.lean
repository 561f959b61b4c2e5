import MultiZone.Pmp.Agreement
import MultiZone.Memory.Aligned

/-! The loop over the bits of a NAPOT address: where it stops, by how much it shifts, and
the block of memory that it finds. -/
namespace MultiZone.Pmp
open Memory

/-- The value of `j` in the round that leaves the loop by break. -/
def breakAt (pmpaddr : Word) : Nat → Nat → Option Nat
  | 0, _ => none
  | rounds + 1, j => if (pmpaddr >>> j) &&& 1 = 0 then some j else breakAt pmpaddr rounds (j + 1)

/-- By how much the loop shifts, in the order of the source, which is the same in both
copies. -/
def shifts (pmpaddr : Word) : Nat → Nat → List Nat
  | 0, _ => []
  | rounds + 1, j =>
    if (pmpaddr >>> j) &&& 1 = 0 then [j, 3 + j, j, j + 2] else j :: shifts pmpaddr rounds (j + 1)

theorem word_toNat (x : BitVec 54) : (x.setWidth 64).toNat = x.toNat := by
  rw [BitVec.toNat_setWidth, Nat.mod_eq_of_lt (Nat.lt_trans x.isLt (by decide))]

theorem last_toNat {start size : Word} (positive : 0 < size.toNat)
    (room : start.toNat + size.toNat ≤ 2 ^ 64) :
    (start + size - 1).toNat + 1 = start.toNat + size.toNat := by
  rw [BitVec.toNat_sub, BitVec.toNat_add]
  change (2 ^ 64 - 1 + (start.toNat + size.toNat) % 2 ^ 64) % 2 ^ 64 + 1 = _
  omega

theorem bit_clear {x : Word} {j : Nat} : (x >>> j) &&& 1 = 0 ↔ x.toNat.testBit j = false := by
  rw [← BitVec.toNat_inj, BitVec.toNat_and, BitVec.toNat_ushiftRight,
    show (1 : Word).toNat = 1 from rfl, Nat.and_one_is_mod, Nat.shiftRight_eq_div_pow,
    Nat.testBit_eq_decide_div_mod_eq, decide_eq_false_iff_not]
  change _ = 0 ↔ _
  omega

section Loop

variable {x : Word}

theorem shl_small {n : Nat} {y : Word} (defined : shl x n = some y) : n < 64 := by
  unfold shl at defined
  split at defined
  · assumption
  · cases defined

theorem defined_iff (rounds : Nat) {j : Nat} (inside : j + rounds ≤ 64) :
    (∃ r, Zone2.napotLoop x rounds j = some r) ↔ ∀ n ∈ shifts x rounds j, n < 64 := by
  induction rounds generalizing j with
  | zero => exact iff_of_true ⟨_, rfl⟩ fun n shifted => by cases shifted
  | succ rounds ih =>
    unfold Zone2.napotLoop shifts
    split
    · constructor
      · rintro ⟨r, computed⟩ n shifted
        obtain ⟨size, defined, -⟩ := Option.bind_eq_some_iff.mp computed
        have small := shl_small defined
        simp only [List.mem_cons, List.not_mem_nil, or_false] at shifted
        omega
      · intro small
        rw [shl_ok 1 (small (3 + j) (by simp)), shl_ok _ (small (j + 2) (by simp))]
        exact ⟨_, rfl⟩
    · rw [ih (by omega), List.forall_mem_cons]
      exact (and_iff_right (by omega)).symm

theorem breakAt_lowest {z : Nat} (lowest : LowestZero x.toNat z) (rounds : Nat) {j : Nat}
    (le : j ≤ z) (enough : z < j + rounds) : breakAt x rounds j = some z := by
  induction rounds generalizing j with
  | zero => omega
  | succ rounds ih =>
    unfold breakAt
    rcases Nat.lt_or_eq_of_le le with before | rfl
    · have one := lowest.ones j before
      rw [if_neg fun clear => by rw [bit_clear.mp clear] at one; cases one]
      exact ih before (by omega)
    · rw [if_pos (bit_clear.mpr lowest.zero)]

theorem napotLoop_break {z : Nat} (rounds : Nat) {j : Nat} (stops : breakAt x rounds j = some z) :
    Zone2.napotLoop x rounds j = (do
      let size ← shl 1 (3 + z)
      let start ← shl (x >>> z) (z + 2)
      some ⟨start, start + size - 1, some .napot⟩) := by
  induction rounds generalizing j with
  | zero => cases stops
  | succ rounds ih =>
    unfold breakAt at stops
    unfold Zone2.napotLoop
    split at stops
    · rename_i clear
      obtain rfl := Option.some.inj stops
      exact if_pos clear
    · rename_i one
      rw [if_neg one]
      exact ih stops

end Loop

section Blocks

variable {x : BitVec 54} {z : Nat}

theorem above_zero {n : Nat} (lowest : LowestZero n z) :
    n / 2 ^ z * 2 ^ (z + 2) = n / 2 ^ (z + 1) * 2 ^ (z + 3) := by
  have clear := lowest.zero
  have even : n / 2 ^ z = n / 2 ^ (z + 1) * 2 := by
    rw [Nat.testBit_eq_decide_div_mod_eq, decide_eq_false_iff_not] at clear
    rw [Nat.pow_succ, ← Nat.div_div_eq_div_mul]
    omega
  rw [even, Nat.mul_assoc, Nat.pow_succ 2 (z + 2), Nat.mul_comm 2]

theorem breakAt_word (lowest : LowestZero x.toNat z) (le : z ≤ 54) :
    breakAt (x.setWidth 64) 64 0 = some z := by
  rw [← word_toNat] at lowest
  exact breakAt_lowest lowest 64 (Nat.zero_le z) (by omega)

theorem napot_row (lowest : LowestZero x.toNat z) (le : z ≤ 54) : ∃ start size : Word,
    Zone2.napotLoop (x.setWidth 64) 64 0 = some ⟨start, start + size - 1, some .napot⟩ ∧
      start.toNat = x.toNat / 2 ^ (z + 1) * 2 ^ (z + 3) ∧ size.toNat = 2 ^ (z + 3) ∧
      start.toNat + size.toNat ≤ 2 ^ 64 := by
  have small := x.isLt
  have start_small : x.toNat / 2 ^ z * 2 ^ (z + 2) ≤ x.toNat * 4 := by
    rw [Nat.pow_add, ← Nat.mul_assoc]
    exact Nat.mul_le_mul_right 4 (Nat.div_mul_le_self x.toNat _)
  have size_small : 2 ^ (z + 3) ≤ 2 ^ 57 := Nat.pow_le_pow_right (by decide) (by omega)
  have start : ((x.setWidth 64 >>> z) <<< (z + 2)).toNat =
      x.toNat / 2 ^ z * 2 ^ (z + 2) := by
    rw [BitVec.toNat_shiftLeft, BitVec.toNat_ushiftRight, word_toNat, Nat.shiftLeft_eq,
      Nat.shiftRight_eq_div_pow]
    omega
  have size : ((1 : Word) <<< (3 + z)).toNat = 2 ^ (z + 3) := by
    rw [BitVec.toNat_shiftLeft, Nat.shiftLeft_eq, Nat.add_comm 3 z]
    change 1 * 2 ^ (z + 3) % 2 ^ 64 = _
    omega
  refine ⟨(x.setWidth 64 >>> z) <<< (z + 2), (1 : Word) <<< (3 + z), ?_, ?_, size, ?_⟩
  · rw [napotLoop_break 64 (breakAt_word lowest le), shl_ok 1 (by omega), shl_ok _ (by omega)]
    rfl
  · rw [start, above_zero lowest]
  · rw [start, size]
    omega

/-- The loop stops at the lowest zero, no shift is too far, and both copies find the
block of bytes whose words agree with the address above that bit. -/
theorem napot_exact (x : BitVec 54) : ∃ j ≤ 54, LowestZero x.toNat j ∧
    breakAt (x.setWidth 64) 64 0 = some j ∧ (∀ n ∈ shifts (x.setWidth 64) 64 0, n < 64) ∧
    ∃ start size : Word,
      Zone2.napotLoop (x.setWidth 64) 64 0 = some ⟨start, start + size - 1, some .napot⟩ ∧
      Hart.napotLoop (x.setWidth 64) 64 0 = some ⟨start, start + size, some .napot⟩ ∧
      2 ^ (j + 3) ∣ start.toNat ∧ size.toNat = 2 ^ (j + 3) ∧
      ∀ a < 2 ^ 56, start.toNat ≤ a ∧ a < start.toNat + size.toNat ↔
        ∀ k > j, (a / 4).testBit k = x.toNat.testBit k := by
  obtain ⟨j, le, lowest⟩ := exists_lowestZero x.isLt
  obtain ⟨start, size, zone2, at_start, at_size, -⟩ := napot_row lowest le
  have shifted := (defined_iff 64 (Nat.le_refl _)).mp ⟨_, zone2⟩
  refine ⟨j, le, lowest, breakAt_word lowest le, shifted, start, size, zone2, ?_, ?_, at_size,
    fun a _ => ?_⟩
  · obtain ⟨z, h, computed, hart, same⟩ :=
      napotLoop_agree (bit54_clear x) 64 (Nat.zero_le 54) (by decide)
    obtain rfl := Option.some.inj (zone2.symm.trans computed)
    rw [hart, same.row, BitVec.sub_add_cancel]
  · rw [at_start]
    exact Nat.dvd_mul_left _ _
  · rw [at_start, at_size]
    exact (covers_block lowest 2).symm.trans ((covers_iff lowest).trans agree_above)

end Blocks

end MultiZone.Pmp
