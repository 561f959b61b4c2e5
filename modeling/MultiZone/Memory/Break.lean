import MultiZone.Memory.Region
import MultiZone.Transition.Machine
import Mathlib.Algebra.Group.Nat.Defs

/-! A heap that grows and shrinks at one end, its break, between fixed bounds. What it
gives out while it only grows lies end to end. -/
namespace Memory
open Transition

universe u

/-- The regions follow one another from the first address to the second. -/
def Tiles : Nat → List Region → Nat → Prop
  | a, [], b => a = b
  | a, r :: regions, b => r.base = a ∧ Tiles (a + r.length) regions b

theorem tiles_snoc {a b : Nat} {regions : List Region} (tiles : Tiles a regions b)
    (length : Nat) : Tiles a (regions ++ [⟨b, length⟩]) (b + length) := by
  induction regions generalizing a with
  | nil =>
    obtain rfl : a = b := tiles
    exact ⟨rfl, rfl⟩
  | cons r regions ih => exact ⟨tiles.1, ih tiles.2⟩

theorem tiles_from {a b : Nat} {regions : List Region} (tiles : Tiles a regions b) :
    ∀ r ∈ regions, a ≤ r.base := by
  induction regions generalizing a with
  | nil =>
    intro r inside
    cases inside
  | cons s regions ih =>
    intro r inside
    rcases List.mem_cons.mp inside with rfl | later
    · exact Nat.le_of_eq tiles.1.symm
    · exact Nat.le_trans (Nat.le_add_right a s.length) (ih tiles.2 r later)

theorem tiles_apart {a b : Nat} {regions : List Region} (tiles : Tiles a regions b) :
    regions.Pairwise Region.Apart := by
  induction regions generalizing a with
  | nil => exact .nil
  | cons s regions ih =>
    refine .cons (fun r later => ?_) (ih tiles.2)
    have behind := tiles_from tiles.2 r later
    rw [← tiles.1] at behind
    exact .inl behind

structure Bounds where
  low : Nat
  high : Nat
  ordered : low ≤ high

/-- A break inside the bounds, and what has been given out. -/
structure Heap (b : Bounds) where
  brk : Nat
  blocks : List Region
  low_le : b.low ≤ brk
  le_high : brk ≤ b.high

namespace Heap

variable {b : Bounds}

def Admits (h : Heap b) (incr : Int) : Prop := b.low ≤ h.brk + incr ∧ h.brk + incr ≤ b.high

instance (h : Heap b) (incr : Int) : Decidable (h.Admits incr) :=
  inferInstanceAs (Decidable (_ ∧ _))

def moved (h : Heap b) (incr : Int) (admits : h.Admits incr) : Heap b where
  brk := (h.brk + incr).toNat
  blocks := h.blocks ++ [⟨h.brk, incr.toNat⟩]
  low_le := Int.ofNat_le.mp (Int.le_trans admits.1 (Int.self_le_toNat _))
  le_high := Int.toNat_le.mpr admits.2

end Heap

section Runs

variable {A : Type u} (b : Bounds) (incr : A → Int)

/-- A request that would take the break over a bound changes nothing. -/
def heaps : Machine (Heap b) A where
  initial := ⟨b.low, [], Nat.le_refl b.low, b.ordered⟩
  step h a := some (if admits : h.Admits (incr a) then h.moved (incr a) admits else h)

variable {b incr}

theorem tiles_step {h h' : Heap b} {a : A} (tiles : Tiles b.low h.blocks h.brk)
    (growing : 0 ≤ incr a) (hs : (heaps b incr).step h a = some h') :
    Tiles b.low h'.blocks h'.brk := by
  obtain rfl := Option.some.inj hs
  split
  · rename_i admits
    have moved : (h.moved (incr a) admits).brk = h.brk + (incr a).toNat := by
      change (h.brk + incr a).toNat = _
      omega
    rw [moved]
    exact tiles_snoc tiles _
  · exact tiles

theorem tiles_growing {as : List A} {h : Heap b} (growing : ∀ a ∈ as, 0 ≤ incr a)
    (hr : (heaps b incr).run (heaps b incr).initial as = some h) :
    Tiles b.low h.blocks h.brk := by
  have keep : ∀ (g : Heap b) a g', Tiles b.low g.blocks g.brk → 0 ≤ incr a →
      (heaps b incr).step g a = some g' → Tiles b.low g'.blocks g'.brk :=
    fun g a g' tiles => tiles_step tiles
  apply Machine.invariant_of_obeys keep _ _ hr
  · exact rfl
  · exact Machine.obeys_of_mem fun a asked _ => growing a asked

end Runs

end Memory
