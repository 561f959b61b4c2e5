import MultiZone.Pmp.Model
import Mathlib.Data.List.Forall2

/-! The two decoders agree on the entries and on their starts. What zone 2 gives as
the end of a region is its last byte, and what the harts give is the byte behind. -/
namespace MultiZone.Pmp

/-- The same region, once with its last byte and once with the byte behind it. -/
structure SameRegion (z h : Row) : Prop where
  start : h.start = z.start
  stop : h.stop = z.stop + 1
  type : h.type = z.type

theorem SameRegion.row {z h : Row} (same : SameRegion z h) :
    h = ⟨z.start, z.stop + 1, z.type⟩ := by
  rw [← same.start, ← same.stop, ← same.type]

/-- Both decoders skip the entry, or both print it. -/
inductive Agree : Option (Option Row) → Option (Option Row) → Prop where
  | skipped : Agree (some none) (some none)
  | printed {z h : Row} (same : SameRegion z h) : Agree (some (some z)) (some (some h))

section Napot

theorem shl_ok (x : Word) {n : Nat} (small : n < 64) : shl x n = some (x <<< n) := if_pos small

theorem bit54_clear (x : BitVec 54) : (x.setWidth 64 >>> 54) &&& 1 = 0 := by
  have zero : x.setWidth 64 >>> 54 = 0 := by
    apply BitVec.eq_of_toNat_eq
    have small := x.isLt
    simp only [BitVec.toNat_ushiftRight, BitVec.toNat_setWidth, Nat.shiftRight_eq_div_pow]
    rw [Nat.mod_eq_of_lt (Nat.lt_trans small (by decide))]
    exact Nat.div_eq_of_lt small
  rw [zero]
  rfl

theorem napotLoop_agree {pmpaddr : Word} (clear : (pmpaddr >>> 54) &&& 1 = 0) (rounds : Nat)
    {j : Nat} (below : j ≤ 54) (enough : 54 < j + rounds) :
    ∃ z h, Zone2.napotLoop pmpaddr rounds j = some z ∧
      Hart.napotLoop pmpaddr rounds j = some h ∧ SameRegion z h := by
  induction rounds generalizing j with
  | zero => omega
  | succ rounds ih =>
    unfold Zone2.napotLoop Hart.napotLoop
    split
    · rw [shl_ok 1 (by omega), shl_ok _ (by omega)]
      exact ⟨_, _, rfl, rfl, rfl, (BitVec.sub_add_cancel _ _).symm, rfl⟩
    · rename_i one
      have before : j ≠ 54 := fun last => one (last ▸ clear)
      exact ih (by omega) (by omega)

end Napot

theorem addr_inside (s : Registers) {i : Nat} (hi : i < 16) :
    ∃ x : BitVec 54, s.addr i = some (x.setWidth 64) :=
  ⟨_, dif_pos ⟨Int.natCast_nonneg i, by omega⟩⟩

/-- All entries but a first one of type TOR, for which both read in front of the
array. -/
theorem decoders_agree (s : Registers) {i : Nat} (hi : i < 16)
    (notFirst : s.cfg i &&& napot = tor → i ≠ 0) :
    Agree (Zone2.entry s i) (Hart.entry s i) := by
  obtain ⟨x, read⟩ := addr_inside s hi
  unfold Zone2.entry Hart.entry
  dsimp only
  split
  · rename_i mode
    obtain ⟨k, rfl⟩ := Nat.exists_eq_succ_of_ne_zero (notFirst mode)
    obtain ⟨y, readBelow⟩ := addr_inside s (Nat.lt_of_succ_lt hi)
    have below : ((k.succ : Nat) : Int) - 1 = k := by omega
    rw [read, below, readBelow]
    exact .printed ⟨rfl, (BitVec.sub_add_cancel _ _).symm, rfl⟩
  split
  · rw [read]
    exact .printed ⟨rfl, (BitVec.sub_add_cancel _ _).symm, rfl⟩
  split
  · obtain ⟨z, h, zone2, hart, same⟩ :=
      napotLoop_agree (bit54_clear x) 64 (Nat.zero_le 54) (by decide)
    simp only [read, bind, Option.bind, zone2, hart]
    exact .printed same
  · exact .skipped

theorem rows_agree {f g : Nat → Option (Option Row)} (entries : List Nat)
    (agree : ∀ i ∈ entries, Agree (f i) (g i)) :
    ∃ rows rows', (entries.mapM f).map (fun rows => rows.filterMap id) = some rows ∧
      (entries.mapM g).map (fun rows => rows.filterMap id) = some rows' ∧
      List.Forall₂ SameRegion rows rows' := by
  induction entries with
  | nil => exact ⟨[], [], rfl, rfl, .nil⟩
  | cons i rest ih =>
    obtain ⟨rows, rows', hf, hg, same⟩ := ih fun j hj => agree j (List.mem_cons_of_mem i hj)
    obtain ⟨read, hread, rfl⟩ := Option.map_eq_some_iff.mp hf
    obtain ⟨read', hread', rfl⟩ := Option.map_eq_some_iff.mp hg
    have head := agree i List.mem_cons_self
    simp only [List.mapM_cons, hread, hread']
    generalize f i = x at head
    generalize g i = y at head
    cases head with
    | skipped => exact ⟨_, _, rfl, rfl, same⟩
    | printed region => exact ⟨_, _, rfl, rfl, .cons region same⟩

/-- Unless the first entry is of type TOR the two print the same regions in the same
order, up to the way in which the ends are given. -/
theorem printPmp_agree (s : Registers) (lower : s.cfg 0 &&& napot ≠ tor) :
    ∃ rows rows', Zone2.printPmp s = some rows ∧ Hart.printPmp s = some rows' ∧
      List.Forall₂ SameRegion rows rows' := by
  apply rows_agree
  intro i hi
  refine decoders_agree s (List.mem_range.mp hi) fun mode => ?_
  rintro rfl
  exact lower mode

def oneNa4 (pmpaddr : BitVec 54) : Registers := ⟨0x10, 0, fun _ => pmpaddr⟩

theorem oneNa4_agree : (oneNa4 1).cfg 0 &&& napot = na4 ∧
    Agree (Zone2.entry (oneNa4 1) 0) (Hart.entry (oneNa4 1) 0) :=
  ⟨rfl, decoders_agree (oneNa4 1) (by decide) fun mode => (by cases mode)⟩

theorem oneNa4_ends : Zone2.entry (oneNa4 1) 0 = some (some ⟨4, 7, some .na4⟩) ∧
    Hart.entry (oneNa4 1) 0 = some (some ⟨4, 8, some .na4⟩) ∧
    Zone2.entry (oneNa4 1) 0 ≠ Hart.entry (oneNa4 1) 0 :=
  ⟨rfl, rfl, by decide⟩

end MultiZone.Pmp
