import Mathlib.Algebra.Group.Nat.Defs
import Mathlib.Data.Nat.Find

/-! Blocks of numbers that are aligned to their size, a power of two, and the numbers
that stand for them: the lowest zero digit gives the size and the digits above it the
place. -/
namespace Memory

structure LowestZero (x j : Nat) : Prop where
  zero : x.testBit j = false
  ones : ∀ m < j, x.testBit m = true

theorem exists_lowestZero {x n : Nat} (small : x < 2 ^ n) : ∃ j ≤ n, LowestZero x j := by
  have some_zero : ∃ j, x.testBit j = false := ⟨n, Nat.testBit_lt_two_pow small⟩
  refine ⟨Nat.find some_zero, Nat.find_min' some_zero (Nat.testBit_lt_two_pow small),
    Nat.find_spec some_zero, fun m below => ?_⟩
  have not_zero := Nat.find_min some_zero below
  simpa using not_zero

theorem agree_above {x y n : Nat} :
    x / 2 ^ n = y / 2 ^ n ↔ ∀ k, n ≤ k → x.testBit k = y.testBit k := by
  rw [Nat.eq_iff_testBit_eq]
  simp only [Nat.testBit_div_two_pow]
  constructor
  · intro same k above
    have at_k := same (k - n)
    rwa [Nat.sub_add_cancel above] at at_k
  · intro same i
    exact same (i + n) (Nat.le_add_left n i)

theorem block_iff {a b n : Nat} : b * 2 ^ n ≤ a ∧ a < b * 2 ^ n + 2 ^ n ↔ a / 2 ^ n = b := by
  have positive : 0 < 2 ^ n := Nat.two_pow_pos n
  rw [Nat.div_eq_iff positive]
  omega

/-- The digits above the lowest zero of `x` are those of `a`. -/
def Covers (x a : Nat) : Prop := ∀ k, (∃ m < k, x.testBit m = false) → a.testBit k = x.testBit k

theorem covers_iff {x a j : Nat} (h : LowestZero x j) :
    Covers x a ↔ a / 2 ^ (j + 1) = x / 2 ^ (j + 1) := by
  rw [agree_above]
  constructor
  · intro covers k above
    exact covers k ⟨j, above, h.zero⟩
  · rintro same k ⟨m, below, zero⟩
    apply same
    rcases Nat.lt_or_ge m j with one | high
    · rw [h.ones m one] at zero
      cases zero
    · omega

theorem covers_block {x a j : Nat} (h : LowestZero x j) (u : Nat) :
    Covers x (a / 2 ^ u) ↔ x / 2 ^ (j + 1) * 2 ^ (j + 1 + u) ≤ a ∧
      a < x / 2 ^ (j + 1) * 2 ^ (j + 1 + u) + 2 ^ (j + 1 + u) := by
  rw [covers_iff h, block_iff, Nat.div_div_eq_div_mul, ← Nat.pow_add, Nat.add_comm u]

end Memory
