import MultiZone.Memory.Break
import MultiZone.Memory.Layout

/-! _sbrk of zone 2. The test is made with pointers that wrap, and the increment is a
signed number of 32 bits, whose least value takes a low break round to the highest
addresses. -/
namespace MultiZone.Newlib
open Transition Memory

abbrev Ptr := BitVec 64

/-- zone2_data and zone2_data_len of memory.ld. -/
def ram : Region := ⟨0x08074000, 16 * 1024⟩

/-- Where the sections in front of the heap end. What does not fit is not linked. -/
structure Placement where
  dot : Nat
  above : ram.base ≤ dot
  fits : roundUp dot 8 ≤ ram.base + ram.length

namespace Placement

/-- _end, at the beginning of .heap. -/
def heapStart (p : Placement) : Nat := roundUp p.dot 8

/-- _heap_end, behind the remaining memory. -/
def heapEnd (p : Placement) : Nat := p.heapStart + (ram.length - (p.heapStart - ram.base))

end Placement

/-- The value returned, and _heap_ptr. -/
def sbrk (p : Placement) (heapPtr : Ptr) (incr : BitVec 32) : Ptr × Ptr :=
  let moved := heapPtr + incr.signExtend 64
  if moved < BitVec.ofNat 64 p.heapStart ∨ moved > BitVec.ofNat 64 p.heapEnd then (-1, heapPtr)
  else (moved - incr.signExtend 64, moved)

structure Call where
  before : Ptr
  incr : BitVec 32
  result : Ptr
  after : Ptr

def call (p : Placement) (heapPtr : Ptr) (incr : BitVec 32) : Call :=
  let r := sbrk p heapPtr incr
  ⟨heapPtr, incr, r.1, r.2⟩

def Call.Succeeds (c : Call) : Prop := c.result ≠ -1

instance (c : Call) : Decidable c.Succeeds := inferInstanceAs (Decidable (_ ≠ _))

def Call.block (c : Call) : Region := ⟨c.result.toNat, c.incr.toInt.toNat⟩

structure State where
  heapPtr : Ptr
  calls : List Call

def State.blocks (s : State) : List Region :=
  (s.calls.filter (·.Succeeds)).map Call.block

def heap (p : Placement) : Machine State (BitVec 32) where
  initial := ⟨BitVec.ofNat 64 p.heapStart, []⟩
  step s incr :=
    let c := call p s.heapPtr incr
    some ⟨c.after, s.calls ++ [c]⟩

/-- The sum of the break and the increment, which does not wrap, is in the heap. -/
def InHeap (p : Placement) (ptr : Ptr) (incr : BitVec 32) : Prop :=
  p.heapStart ≤ (ptr.toNat : Int) + incr.toInt ∧ ptr.toNat + incr.toInt ≤ p.heapEnd

instance (p : Placement) (ptr : Ptr) (incr : BitVec 32) : Decidable (InHeap p ptr incr) :=
  inferInstanceAs (Decidable (_ ∧ _))

structure Exact (p : Placement) (c : Call) : Prop where
  succeeds : c.Succeeds ↔ InHeap p c.before c.incr
  granted : c.Succeeds → c.result = c.before ∧ c.after.toNat = c.before.toNat + c.incr.toInt
  refused : ¬ c.Succeeds → c.result = -1 ∧ c.after = c.before

section Placed

variable (p : Placement)

theorem heapEnd_eq : p.heapEnd = ram.base + ram.length := by
  have low : ram.base ≤ p.heapStart := Nat.le_trans p.above (le_roundUp p.dot (by decide))
  have high : p.heapStart ≤ ram.base + ram.length := p.fits
  unfold Placement.heapEnd
  omega

theorem heapEnd_small : p.heapEnd < 2 ^ 32 := by
  rw [heapEnd_eq]
  decide

def Placement.bounds : Bounds where
  low := p.heapStart
  high := p.heapEnd
  ordered := Nat.le_add_right _ _

theorem heapEnd_toNat : (BitVec.ofNat 64 p.heapEnd).toNat = p.heapEnd := by
  rw [BitVec.toNat_ofNat]
  exact Nat.mod_eq_of_lt (Nat.lt_trans (heapEnd_small p) (by decide))

theorem heapStart_toNat : (BitVec.ofNat 64 p.heapStart).toNat = p.heapStart := by
  have small := Nat.lt_of_le_of_lt p.bounds.ordered (heapEnd_small p)
  rw [BitVec.toNat_ofNat]
  exact Nat.mod_eq_of_lt (Nat.lt_trans small (by decide))

end Placed

section Step

variable {p : Placement} {ptr : Ptr} {incr : BitVec 32}

/-- A negative sum wraps, and no other does. -/
theorem moved_toNat (low : ptr.toNat < 2 ^ 32) : ((ptr + incr.signExtend 64).toNat : Int) =
    if 0 ≤ (ptr.toNat : Int) + incr.toInt then (ptr.toNat : Int) + incr.toInt
    else ptr.toNat + incr.toInt + (2 ^ 64 : Nat) := by
  have least := @BitVec.le_two_mul_toInt 32 incr
  have greatest := @BitVec.two_mul_toInt_lt 32 incr
  rw [BitVec.signExtend, BitVec.toNat_add, BitVec.toNat_ofInt]
  split <;> omega

theorem test_iff (inside : ptr.toNat ≤ p.heapEnd) :
    (ptr + incr.signExtend 64 < BitVec.ofNat 64 p.heapStart ∨
      ptr + incr.signExtend 64 > BitVec.ofNat 64 p.heapEnd) ↔ ¬ InHeap p ptr incr := by
  have small := heapEnd_small p
  have least := @BitVec.le_two_mul_toInt 32 incr
  have moved := @moved_toNat ptr incr (Nat.lt_of_le_of_lt inside small)
  rw [gt_iff_lt, BitVec.lt_def, BitVec.lt_def, heapStart_toNat, heapEnd_toNat]
  unfold InHeap
  split at moved <;> omega

theorem sbrk_granted (inside : ptr.toNat ≤ p.heapEnd) (admits : InHeap p ptr incr) :
    sbrk p ptr incr = (ptr, ptr + incr.signExtend 64) ∧
      (ptr + incr.signExtend 64).toNat = ptr.toNat + incr.toInt := by
  have test : ¬ _ := fun refused => (test_iff inside).mp refused admits
  have moved := @moved_toNat ptr incr (Nat.lt_of_le_of_lt inside (heapEnd_small p))
  have low := admits.1
  rw [if_pos (by omega)] at moved
  unfold sbrk
  dsimp only
  rw [if_neg test, BitVec.add_sub_cancel]
  exact ⟨rfl, moved⟩

theorem sbrk_refused (inside : ptr.toNat ≤ p.heapEnd) (outside : ¬ InHeap p ptr incr) :
    sbrk p ptr incr = (-1, ptr) :=
  if_pos ((test_iff inside).mpr outside)

theorem ptr_ne (inside : ptr.toNat ≤ p.heapEnd) : ptr ≠ -1 := by
  rintro rfl
  exact absurd (Nat.lt_of_le_of_lt inside (heapEnd_small p)) (by decide)

theorem call_exact (inside : ptr.toNat ≤ p.heapEnd) : Exact p (call p ptr incr) := by
  rcases Decidable.em (InHeap p ptr incr) with admits | outside
  · obtain ⟨granted, moved⟩ := @sbrk_granted p ptr incr inside admits
    have made : call p ptr incr = ⟨ptr, incr, ptr, ptr + incr.signExtend 64⟩ := by
      unfold call
      rw [granted]
    have success : (call p ptr incr).Succeeds := by
      rw [made]
      exact ptr_ne inside
    rw [made] at success ⊢
    exact ⟨iff_of_true success admits, fun _ => ⟨rfl, moved⟩, fun not => absurd success not⟩
  · have made : call p ptr incr = ⟨ptr, incr, -1, ptr⟩ := by
      unfold call
      rw [sbrk_refused inside outside]
    rw [made]
    have failure : ¬ Call.Succeeds ⟨ptr, incr, -1, ptr⟩ := fun success => success rfl
    exact ⟨iff_of_false failure outside, fun success => absurd success failure,
      fun _ => ⟨rfl, rfl⟩⟩

end Step

section Runs

variable {p : Placement}

structure Stands (s : State) (h : Heap p.bounds) : Prop where
  brk : s.heapPtr.toNat = h.brk
  blocks : s.blocks = h.blocks
  calls : ∀ c ∈ s.calls, Exact p c

section Snoc

variable {ptr ptr' : Ptr} {calls : List Call} {c : Call}

theorem blocks_granted (success : c.Succeeds) :
    State.blocks ⟨ptr', calls ++ [c]⟩ = State.blocks ⟨ptr, calls⟩ ++ [c.block] := by
  have kept : [c].filter (·.Succeeds) = [c] := List.filter_cons_of_pos (decide_eq_true success)
  unfold State.blocks
  rw [List.filter_append, List.map_append, kept]
  rfl

theorem blocks_refused (failure : ¬ c.Succeeds) :
    State.blocks ⟨ptr', calls ++ [c]⟩ = State.blocks ⟨ptr, calls⟩ := by
  have dropped : [c].filter (·.Succeeds) = [] :=
    List.filter_cons_of_neg fun success => failure (of_decide_eq_true success)
  unfold State.blocks
  rw [List.filter_append, dropped, List.append_nil]

theorem calls_snoc (all : ∀ d ∈ calls, Exact p d) (last : Exact p c) :
    ∀ d ∈ calls ++ [c], Exact p d := by
  intro d made
  rcases List.mem_append.mp made with before | now
  · exact all d before
  · rw [List.mem_singleton.mp now]
    exact last

end Snoc

theorem stands_initial :
    Stands (heap p).initial (heaps p.bounds (BitVec.toInt (n := 32))).initial where
  brk := heapStart_toNat p
  blocks := rfl
  calls c made := by cases made

/-- A call is a request to the heap. -/
theorem stands_step {s s' : State} {h : Heap p.bounds} {incr : BitVec 32} (stands : Stands s h)
    (hs : (heap p).step s incr = some s') :
    ∃ h', (heaps p.bounds BitVec.toInt).step h incr = some h' ∧ Stands s' h' := by
  obtain rfl := Option.some.inj hs
  have inside : s.heapPtr.toNat ≤ p.heapEnd := stands.brk ▸ h.le_high
  have exact_call := @call_exact p s.heapPtr incr inside
  have same : InHeap p s.heapPtr incr ↔ h.Admits incr.toInt := by
    unfold InHeap
    rw [stands.brk]
    rfl
  have calls := calls_snoc stands.calls exact_call
  rcases Decidable.em (h.Admits incr.toInt) with admits | outside
  · have success := exact_call.succeeds.mpr (same.mpr admits)
    obtain ⟨result, after⟩ := exact_call.granted success
    refine ⟨h.moved incr.toInt admits, congrArg some (dif_pos admits), ?_, ?_, calls⟩
    · change (call p s.heapPtr incr).after.toNat = (h.brk + incr.toInt).toNat
      change _ = (s.heapPtr.toNat : Int) + incr.toInt at after
      rw [← stands.brk]
      omega
    · have block : (call p s.heapPtr incr).block = ⟨h.brk, incr.toInt.toNat⟩ := by
        unfold Call.block
        rw [result, ← stands.brk]
        rfl
      rw [blocks_granted success, block]
      exact congrArg (· ++ _) stands.blocks
  · have failure := fun success => outside (same.mp (exact_call.succeeds.mp success))
    obtain ⟨-, after⟩ := exact_call.refused failure
    refine ⟨h, congrArg some (dif_neg outside), ?_, ?_, calls⟩
    · rw [after]
      exact stands.brk
    · rw [blocks_refused failure]
      exact stands.blocks

theorem run_calls (incrs : List (BitVec 32)) (s : State) : ∃ s', (heap p).run s incrs = some s' ∧
    s'.calls.map Call.incr = s.calls.map Call.incr ++ incrs := by
  induction incrs generalizing s with
  | nil => exact ⟨s, rfl, (List.append_nil _).symm⟩
  | cons incr incrs ih =>
    obtain ⟨s', run, calls⟩ := ih ⟨_, s.calls ++ [call p s.heapPtr incr]⟩
    refine ⟨s', Machine.run_cons.mpr ⟨_, rfl, run⟩, ?_⟩
    rw [calls, List.map_append, List.append_assoc]
    rfl

/-- Whatever the increments are, the break stays in the heap, a call succeeds exactly
if the sum is in it, and without negative increments the blocks lie end to end. -/
theorem sbrk_safe (p : Placement) (incrs : List (BitVec 32)) : ∃ s,
    (heap p).run (heap p).initial incrs = some s ∧ s.calls.map Call.incr = incrs ∧
    (p.heapStart ≤ s.heapPtr.toNat ∧ s.heapPtr.toNat ≤ p.heapEnd) ∧
    (∀ c ∈ s.calls, Exact p c) ∧
    ((∀ incr ∈ incrs, 0 ≤ incr.toInt) →
      Tiles p.heapStart s.blocks s.heapPtr.toNat ∧ s.blocks.Pairwise Region.Apart) := by
  obtain ⟨s, run, made⟩ := @run_calls p incrs (heap p).initial
  obtain ⟨h, follows, stands⟩ := simulation_follow (fun _ _ _ _ => stands_step) stands_initial run
  refine ⟨s, run, made, ?_, stands.calls, fun growing => ?_⟩
  · rw [stands.brk]
    exact ⟨h.low_le, h.le_high⟩
  · have tiles : Tiles p.heapStart h.blocks h.brk := tiles_growing growing follows
    rw [stands.brk, stands.blocks]
    exact ⟨tiles, tiles_apart tiles⟩

/-- To the end of the heap, past it, by the least increment, and back. -/
example : let p : Placement := ⟨0x08074400, by decide, by decide⟩
    ((heap p).run (heap p).initial [15 * 1024, 1, 0x80000000, -15 * 1024]).map
      (fun s => s.calls.map Call.result) = some [0x08074400, -1, -1, 0x08078000] := by
  decide

end Runs

end MultiZone.Newlib
