import MultiZone.Riscv.Blocks

/-! The routines of mss_entry.S that copy and clear. Most of them go on until two numbers are equal,
and run on where they never are. -/
namespace MultiZone.Startup
open Riscv Memory

/-- config_copy, config_32_copy and config_64_copy differ in what they copy at once. -/
def configCopy (w k : Nat) : List Instr := [
  .addi .t1 .a0 0, .branch .eq .a2 .zero (k + 8),
  /- 1: 2 -/ .load w .t2 0 .a1, .store w .t2 0 .t1, .addi .a2 .a2 (-BitVec.ofNat 64 w),
  .addi .t1 .t1 (BitVec.ofNat 64 w), .addi .a1 .a1 (BitVec.ofNat 64 w),
  .branch .ne .a2 .zero (k + 2),
  /- 2: 8 -/ .ret]

def config_copy (k : Nat) : List Instr := configCopy 1 k
def config_32_copy (k : Nat) : List Instr := configCopy 4 k
def config_64_copy (k : Nat) : List Instr := configCopy 8 k

def memfill (k : Nat) : List Instr := [
  .addi .t1 .a0 0, .addi .t2 .a1 0, .branch .eq .a2 .zero (k + 7),
  /- 1: 3 -/ .store 1 .t2 0 .t1, .addi .a2 .a2 (-1), .addi .t1 .t1 1, .branch .ne .a2 .zero (k + 3),
  /- 2: 7 -/ .ret]

/-- The harts compare with beq, the boot loader with bge. -/
def zero_section (t : Test) (k : Nat) : List Instr := [
  .branch t .a0 .a1 (k + 4), .store 8 .zero 0 .a0, .addi .a0 .a0 8, .jump k,
  /- .zero_section_done: 4 -/ .ret]

def copy_section (k : Nat) : List Instr := [
  .branch .eq .a1 .a0 (k + 7),
  /- .check_if_copy_section_done: 1 -/ .branch .eq .a1 .a2 (k + 7),
  .load 8 .a3 0 .a0, .store 8 .a3 0 .a1, .addi .a0 .a0 8, .addi .a1 .a1 8, .jump (k + 1),
  /- .copy_section_done: 7 -/ .ret]

section Copying

variable {p : List Instr} {w k n i : Nat} {s u : State}

/-- A call with these arguments. -/
def called (a0 a1 a2 : Word) : State where
  pc := 0
  regs := fun r => if r = .a0 then a0 else if r = .a1 then a1 else if r = .a2 then a2 else 0x100
  mem := fun x => UInt8.ofNat x.toNat
  csr := fun _ => 0

theorem ofNat_unlike {m : Nat} (some' : 0 < m) (small : m < 2 ^ 64) : BitVec.ofNat 64 m ≠ 0 := by
  intro zero
  have value := congrArg BitVec.toNat zero
  rw [BitVec.toNat_ofNat, Nat.mod_eq_of_lt small] at value
  exact absurd value (Nat.ne_of_gt some')

/-- After some rounds. -/
structure Copying (s : State) (w k n i : Nat) (u : State) : Prop where
  pc : u.pc = if i = n then k + 8 else k + 2
  length : u.get .a2 = BitVec.ofNat 64 (w * (n - i))
  source : u.get .a1 = s.get .a1 + BitVec.ofNat 64 (w * i)
  dest : u.get .t1 = s.get .a0 + BitVec.ofNat 64 (w * i)
  mem : u.mem = copied s.mem (s.get .a0) (s.get .a1) (w * i)
  same : u.get .ra = s.get .ra ∧ u.get .a0 = s.get .a0

theorem Copying.round (code : At p k (configCopy w k)) (some' : 0 < w) (small : w ≤ 8)
    (fits : w * n < 2 ^ 64) (ahead : (s.get .a1 - s.get .a0).toNat + w * n ≤ 2 ^ 64) (more : i < n)
    (c : Copying s w k n i u) : Run p (Copying s w k n (i + 1)) u := by
  rcases u with ⟨pc, regs, mem, csr⟩
  obtain ⟨at', length, source, dest, stored, same⟩ := c
  rw [if_neg (Nat.ne_of_lt more)] at at'
  cases at'
  have left : w * (n - i) = w * (n - (i + 1)) + w := by
    rw [← Nat.mul_succ]
    congr 1
    omega
  have done' : w * (i + 1) + w * (n - (i + 1)) = w * n := by
    rw [← Nat.mul_add, Nat.add_sub_cancel' more]
  have next : w * (i + 1) = w * i + w := Nat.mul_succ w i
  have length' : regs .a2 + -BitVec.ofNat 64 w = BitVec.ofNat 64 (w * (n - (i + 1))) := by
    have before : regs .a2 = BitVec.ofNat 64 (w * (n - i)) := length
    rw [before, left]
    bv_omega
  apply Run.next (code.fetch (i := 2) rfl)
  apply Run.next (code.fetch (i := 3) rfl)
  apply Run.next (code.fetch (i := 4) rfl)
  apply Run.next (code.fetch (i := 5) rfl)
  apply Run.next (code.fetch (i := 6) rfl)
  apply Run.next (code.fetch (i := 7) rfl)
  refine .done ⟨?_, length', ?_, ?_, ?_, same⟩
  · change (if Test.ne.holds (regs .a2 + -BitVec.ofNat 64 w) 0 then k + 2 else k + 8) = _
    rw [length']
    rcases Decidable.em (i + 1 = n) with last | further
    · subst last
      rw [if_pos rfl, Nat.sub_self]
      rfl
    · have unlike := ofNat_unlike (m := w * (n - (i + 1))) (Nat.mul_pos some' (by omega)) (by omega)
      rw [if_neg further]
      exact if_pos (bne_iff_ne.mpr unlike)
  · rw [next, BitVec.ofNat_add, ← BitVec.add_assoc]
    exact congrArg (· + BitVec.ofNat 64 w) source
  · rw [next, BitVec.ofNat_add, ← BitVec.add_assoc]
    exact congrArg (· + BitVec.ofNat 64 w) dest
  · have zero : ∀ x : Word, x + 0 = x := BitVec.add_zero
    change write mem w (regs .t1 + 0) (read mem w (regs .a1 + 0)) = _
    have source' : regs .a1 = _ := source
    have dest' : regs .t1 = _ := dest
    have stored' : mem = _ := stored
    rw [zero, zero, write_read small, source', dest', stored', next]
    apply copied_more
    · omega
    · exact some'
    · omega

theorem configCopy_copies (code : At p k (configCopy w k)) (some' : 0 < w) (small : w ≤ 8)
    (start : s.pc = k) (whole : w ∣ (s.get .a2).toNat)
    (ahead : (s.get .a1 - s.get .a0).toNat + (s.get .a2).toNat ≤ 2 ^ 64) :
    Run p (fun u => u.pc = k + 8 ∧ u.get .ra = s.get .ra ∧ u.get .a0 = s.get .a0 ∧
      u.mem = copied s.mem (s.get .a0) (s.get .a1) (s.get .a2).toNat) s := by
  obtain ⟨n, length⟩ := whole
  have fits := (s.get .a2).isLt
  have length' : s.get .a2 = BitVec.ofNat 64 (w * n) := by
    rw [← length, BitVec.ofNat_toNat, BitVec.setWidth_eq]
  rw [length] at ahead fits ⊢
  subst start
  have first : Run p (Copying s w s.pc n 0) s := by
    apply Run.next (code.fetch (i := 0) rfl)
    apply Run.next (code.fetch (i := 1) rfl)
    refine .done ⟨?_, length', ?_, ?_, ?_, rfl, rfl⟩
    · change (if Test.eq.holds (s.get .a2) 0 then s.pc + 8 else s.pc + 2) = _
      rw [length']
      cases n with
      | zero => rfl
      | succ n =>
        have unlike := ofNat_unlike (Nat.mul_pos some' n.succ_pos) fits
        exact if_neg (Bool.not_eq_true _ ▸ beq_false_of_ne unlike)
    · exact (BitVec.add_zero _).symm
    · rfl
    · rfl
  apply first.bind
  intro t invariant
  apply (Run.loop n (fun i more u => Copying.round code some' small fits ahead more) invariant).mono
  rintro u ⟨at', length, source, dest, stored, ra, a0⟩
  exact ⟨at'.trans (if_pos rfl), ra, a0, stored⟩

/-- Taking the width off keeps a length that it does not divide. -/
theorem configCopy_endless (code : At p k (configCopy w k)) (width : w = 1 ∨ w = 4 ∨ w = 8)
    (start : s.pc = k) (part : ¬ w ∣ (s.get .a2).toNat) : ¬ Run p (fun u => u.pc = k + 8) s := by
  apply Run.never (I := fun u => (∃ j < 8, u.pc = k + j) ∧ ¬ w ∣ (u.get .a2).toNat)
  · rintro u t ⟨⟨j, low, at'⟩, part⟩ one
    have unlike : u.get .a2 ≠ 0 := by
      intro zero
      rw [zero] at part
      exact part (Nat.dvd_zero w)
    have less : ¬ w ∣ (u.get .a2 + -BitVec.ofNat 64 w).toNat := by
      have hu := (u.get .a2).isLt
      rw [BitVec.toNat_add, BitVec.toNat_neg, BitVec.toNat_ofNat]
      rcases width with rfl | rfl | rfl <;> omega
    rcases j with _ | _ | _ | _ | _ | _ | _ | _ | j
    · cases code.step (i := 0) rfl at' one
      exact ⟨⟨1, by decide, congrArg (· + 1) at'⟩, part⟩
    · cases code.step (i := 1) rfl at' one
      refine ⟨⟨2, by decide, ?_⟩, part⟩
      change (if Test.eq.holds (u.get .a2) 0 then k + 8 else u.pc + 1) = _
      rw [Test.holds, beq_false_of_ne unlike]
      exact congrArg (· + 1) at'
    · cases code.step (i := 2) rfl at' one
      exact ⟨⟨3, by decide, congrArg (· + 1) at'⟩, part⟩
    · cases code.step (i := 3) rfl at' one
      exact ⟨⟨4, by decide, congrArg (· + 1) at'⟩, part⟩
    · cases code.step (i := 4) rfl at' one
      exact ⟨⟨5, by decide, congrArg (· + 1) at'⟩, less⟩
    · cases code.step (i := 5) rfl at' one
      exact ⟨⟨6, by decide, congrArg (· + 1) at'⟩, part⟩
    · cases code.step (i := 6) rfl at' one
      exact ⟨⟨7, by decide, congrArg (· + 1) at'⟩, part⟩
    · cases code.step (i := 7) rfl at' one
      refine ⟨⟨2, by decide, ?_⟩, part⟩
      change (if Test.ne.holds (u.get .a2) 0 then k + 2 else u.pc + 1) = _
      rw [Test.holds, bne_iff_ne.mpr unlike]
      rfl
    · omega
  · rintro u ⟨⟨j, low, at'⟩, -⟩ done'
    omega
  · exact ⟨⟨0, by decide, start⟩, part⟩

/-- They come back with the copy made if and only if their width divides the length. -/
theorem configCopy_iff (code : At p k (configCopy w k)) (width : w = 1 ∨ w = 4 ∨ w = 8)
    (start : s.pc = k) (ahead : (s.get .a1 - s.get .a0).toNat + (s.get .a2).toNat ≤ 2 ^ 64) :
    Run p (fun u => u.pc = k + 8 ∧ u.get .ra = s.get .ra ∧ u.get .a0 = s.get .a0 ∧
      u.mem = copied s.mem (s.get .a0) (s.get .a1) (s.get .a2).toNat) s ↔ w ∣ (s.get .a2).toNat := by
  constructor
  · intro run
    apply Decidable.byContradiction
    intro part
    exact configCopy_endless code width start part (run.mono fun _ returned => returned.1)
  · intro whole
    exact configCopy_copies code (by omega) (by omega) start whole ahead

theorem config_64_copy_twelve :
    ¬ Run (config_64_copy 0) (fun u => u.pc = 8 ∧ u.get .ra = 0x100 ∧ u.get .a0 = 0x1000 ∧
      u.mem = copied (fun x => UInt8.ofNat x.toNat) 0x1000 0x2000 12) (called 0x1000 0x2000 12) := by
  intro run
  have whole := (configCopy_iff (s := called 0x1000 0x2000 12) (p := config_64_copy 0) (w := 8)
    (k := 0) rfl (.inr (.inr rfl)) rfl (by decide)).mp run
  exact absurd whole (by decide)

end Copying

section Filling

variable {p : List Instr} {k n i : Nat} {s u : State}

structure Filling (s : State) (k n i : Nat) (u : State) : Prop where
  pc : u.pc = if i = n then k + 7 else k + 3
  length : u.get .a2 = BitVec.ofNat 64 (n - i)
  value : u.get .t2 = s.get .a1
  dest : u.get .t1 = s.get .a0 + BitVec.ofNat 64 i
  mem : u.mem = fill s.mem (s.get .a0) i (UInt8.ofNat (s.get .a1).toNat)
  same : u.get .ra = s.get .ra ∧ u.get .a0 = s.get .a0

theorem Filling.round (code : At p k (memfill k)) (fits : n < 2 ^ 64) (more : i < n)
    (f : Filling s k n i u) : Run p (Filling s k n (i + 1)) u := by
  rcases u with ⟨pc, regs, mem, csr⟩
  obtain ⟨at', length, value, dest, stored, ra, a0⟩ := f
  rw [if_neg (Nat.ne_of_lt more)] at at'
  cases at'
  have length' : regs .a2 + -1 = BitVec.ofNat 64 (n - (i + 1)) := by
    have before : regs .a2 = BitVec.ofNat 64 (n - i) := length
    have left : n - i = n - (i + 1) + 1 := by omega
    rw [before, left]
    bv_omega
  have dest' : regs .t1 + 1 = s.get .a0 + BitVec.ofNat 64 (i + 1) := by
    have before : regs .t1 = s.get .a0 + BitVec.ofNat 64 i := dest
    rw [before, BitVec.ofNat_add, ← BitVec.add_assoc]
    rfl
  have stored' : write mem 1 (regs .t1 + 0) (regs .t2) =
      fill s.mem (s.get .a0) (i + 1) (UInt8.ofNat (s.get .a1).toNat) := by
    have zero : regs .t1 + 0 = s.get .a0 + BitVec.ofNat 64 i := (BitVec.add_zero _).trans dest
    have byte : regs .t2 = s.get .a1 := value
    have before : mem = _ := stored
    rw [zero, write_one, byte, before]
    exact fill_more _ (by omega) (by decide)
  have body : Run p (fun v => v.pc = k + 6 ∧ v.get .a2 = BitVec.ofNat 64 (n - (i + 1)) ∧
      v.get .t2 = s.get .a1 ∧ v.get .t1 = s.get .a0 + BitVec.ofNat 64 (i + 1) ∧
      v.mem = fill s.mem (s.get .a0) (i + 1) (UInt8.ofNat (s.get .a1).toNat) ∧
      v.get .ra = s.get .ra ∧ v.get .a0 = s.get .a0) ⟨k + 3, regs, mem, csr⟩ := by
    apply Run.next (code.fetch (i := 3) rfl)
    apply Run.next (code.fetch (i := 4) rfl)
    apply Run.next (code.fetch (i := 5) rfl)
    exact .done ⟨rfl, length', value, dest', stored', ra, a0⟩
  apply body.bind
  rintro v ⟨at', left, value, dest, stored, ra, a0⟩
  rcases Decidable.em (i + 1 = n) with last | further
  · have ended : Test.ne.holds (v.get .a2) (v.get .zero) = false := by
      rw [left, last, Nat.sub_self]
      rfl
    apply Run.passed (at' ▸ code.fetch (i := 6) rfl) ended
    exact .done ⟨(congrArg (· + 1) at').trans (if_pos last).symm, left, value, dest, stored, ra, a0⟩
  · have unlike := ofNat_unlike (m := n - (i + 1)) (by omega) (by omega)
    have goes : Test.ne.holds (v.get .a2) (v.get .zero) = true := by
      rw [left]
      exact bne_iff_ne.mpr unlike
    apply Run.taken (at' ▸ code.fetch (i := 6) rfl) goes
    exact .done ⟨(if_neg further).symm, left, value, dest, stored, ra, a0⟩

/-- memfill comes back from every length, with as many bytes set to the value. -/
theorem memfill_fills (code : At p k (memfill k)) (start : s.pc = k) :
    Run p (fun u => u.pc = k + 7 ∧ u.get .ra = s.get .ra ∧ u.get .a0 = s.get .a0 ∧
      u.mem = fill s.mem (s.get .a0) (s.get .a2).toNat (UInt8.ofNat (s.get .a1).toNat)) s := by
  have fits := (s.get .a2).isLt
  have length : s.get .a2 = BitVec.ofNat 64 (s.get .a2).toNat := by
    rw [BitVec.ofNat_toNat, BitVec.setWidth_eq]
  generalize (s.get .a2).toNat = n at *
  subst start
  have first : Run p (Filling s s.pc n 0) s := by
    apply Run.next (code.fetch (i := 0) rfl)
    apply Run.next (code.fetch (i := 1) rfl)
    apply Run.next (code.fetch (i := 2) rfl)
    refine .done ⟨?_, length, BitVec.add_zero _, ?_, rfl, rfl, rfl⟩
    · change (if Test.eq.holds (s.get .a2) 0 then s.pc + 7 else s.pc + 3) = _
      rw [length]
      cases n with
      | zero => rfl
      | succ n =>
        have unlike := ofNat_unlike n.succ_pos fits
        exact if_neg (Bool.not_eq_true _ ▸ beq_false_of_ne unlike)
    · rfl
  apply first.bind
  intro t invariant
  apply (Run.loop n (fun i more u => Filling.round code fits more) invariant).mono
  rintro u ⟨at', length, value, dest, stored, ra, a0⟩
  exact ⟨at'.trans (if_pos rfl), ra, a0, stored⟩

end Filling

section Clearing

variable {p : List Instr} {t : Test} {k n i : Nat} {s u : State}

structure Clearing (s : State) (k i : Nat) (u : State) : Prop where
  pc : u.pc = k
  place : u.get .a0 = s.get .a0 + BitVec.ofNat 64 (8 * i)
  mem : u.mem = fill s.mem (s.get .a0) (8 * i) 0
  same : u.get .a1 = s.get .a1 ∧ u.get .ra = s.get .ra

theorem Clearing.round (code : At p k (zero_section t k)) (fits : 8 * (i + 1) ≤ 2 ^ 64)
    (more : t.holds (s.get .a0 + BitVec.ofNat 64 (8 * i)) (s.get .a1) = false)
    (c : Clearing s k i u) : Run p (Clearing s k (i + 1)) u := by
  obtain ⟨at', place, stored, same⟩ := c
  subst at'
  rw [← place, ← same.1] at more
  apply Run.passed (code.fetch (i := 0) rfl) more
  apply Run.next (code.fetch (i := 1) rfl)
  apply Run.next (code.fetch (i := 2) rfl)
  apply Run.next (code.fetch (i := 3) rfl)
  refine .done ⟨rfl, ?_, ?_, same⟩
  · rw [Nat.mul_succ, BitVec.ofNat_add, ← BitVec.add_assoc]
    exact congrArg (· + BitVec.ofNat 64 8) place
  · have zero : u.get .a0 + 0 = u.get .a0 := BitVec.add_zero _
    change write u.mem 8 (u.get .a0 + 0) 0 = _
    rw [zero, write_zero, stored, place]
    exact fill_more 0 fits (by decide)

theorem zero_section_run (code : At p k (zero_section t k)) (start : s.pc = k)
    (fits : 8 * n ≤ 2 ^ 64)
    (more : ∀ i < n, t.holds (s.get .a0 + BitVec.ofNat 64 (8 * i)) (s.get .a1) = false)
    (last : t.holds (s.get .a0 + BitVec.ofNat 64 (8 * n)) (s.get .a1) = true) :
    Run p (fun u => u.pc = k + 4 ∧ u.get .ra = s.get .ra ∧
      u.mem = fill s.mem (s.get .a0) (8 * n) 0) s := by
  have first : Clearing s k 0 s := ⟨start, (BitVec.add_zero _).symm, rfl, rfl, rfl⟩
  apply (Run.loop n (fun i less u => Clearing.round code (by omega) (more i less)) first).bind
  rintro u ⟨at', place, stored, same⟩
  subst at'
  rw [← place, ← same.1] at last
  apply Run.taken (code.fetch (i := 0) rfl) last
  exact .done ⟨rfl, same.2, stored⟩

/-- The harts clear all there is from one address to the other, around the end of memory too. -/
theorem zero_section_exact (code : At p k (zero_section .eq k)) (start : s.pc = k)
    (whole : 8 ∣ (s.get .a1 - s.get .a0).toNat) :
    Run p (fun u => u.pc = k + 4 ∧ u.get .ra = s.get .ra ∧
      u.mem = fill s.mem (s.get .a0) (s.get .a1 - s.get .a0).toNat 0) s := by
  obtain ⟨n, size⟩ := whole
  have fits := (s.get .a1 - s.get .a0).isLt
  rw [size] at fits ⊢
  apply zero_section_run code start (by omega)
  · intro i less
    apply beq_false_of_ne
    intro same
    have back : s.get .a1 - s.get .a0 = BitVec.ofNat 64 (8 * i) := by
      rw [← same]
      bv_omega
    have value := congrArg BitVec.toNat back
    rw [size, BitVec.toNat_ofNat] at value
    omega
  · have back : BitVec.ofNat 64 (8 * n) = s.get .a1 - s.get .a0 := by
      rw [← size, BitVec.ofNat_toNat, BitVec.setWidth_eq]
    rw [back]
    exact beq_iff_eq.mpr (by bv_omega)

theorem zero_section_endless (code : At p k (zero_section .eq k)) (start : s.pc = k)
    (part : ¬ 8 ∣ (s.get .a1 - s.get .a0).toNat) : ¬ Run p (fun u => u.pc = k + 4) s := by
  apply Run.never (I := fun u => (∃ j < 4, u.pc = k + j) ∧ ¬ 8 ∣ (u.get .a1 - u.get .a0).toNat)
  · rintro u t ⟨⟨j, low, at'⟩, part⟩ one
    have unlike : u.get .a0 ≠ u.get .a1 := by
      intro same
      rw [same, BitVec.sub_self] at part
      exact part (Nat.dvd_zero 8)
    have less : ¬ 8 ∣ (u.get .a1 - (u.get .a0 + 8)).toNat := by
      bv_omega
    rcases j with _ | _ | _ | _ | j
    · cases code.step (i := 0) rfl at' one
      refine ⟨⟨1, by decide, ?_⟩, part⟩
      change (if Test.eq.holds (u.get .a0) (u.get .a1) then k + 4 else u.pc + 1) = _
      rw [Test.holds, beq_false_of_ne unlike]
      exact congrArg (· + 1) at'
    · cases code.step (i := 1) rfl at' one
      exact ⟨⟨2, by decide, congrArg (· + 1) at'⟩, part⟩
    · cases code.step (i := 2) rfl at' one
      exact ⟨⟨3, by decide, congrArg (· + 1) at'⟩, less⟩
    · cases code.step (i := 3) rfl at' one
      exact ⟨⟨0, by decide, rfl⟩, part⟩
    · omega
  · rintro u ⟨⟨j, low, at'⟩, -⟩ done'
    omega
  · exact ⟨⟨0, by decide, start⟩, part⟩

/-- The boot loader always stops, at a multiple of 8. -/
theorem zero_section_rounds (code : At p k (zero_section .ge k)) (start : s.pc = k)
    (small : (s.get .a1).toNat + 8 ≤ 2 ^ 63) (low : (s.get .a0).toNat < 2 ^ 63) :
    Run p (fun u => u.pc = k + 4 ∧ u.get .ra = s.get .ra ∧
      u.mem = fill s.mem (s.get .a0) (roundUp ((s.get .a1).toNat - (s.get .a0).toNat) 8) 0) s := by
  obtain ⟨n, size⟩ : ∃ n, roundUp ((s.get .a1).toNat - (s.get .a0).toNat) 8 = 8 * n :=
    ⟨_, Nat.mul_comm _ 8⟩
  have bounds : (s.get .a1).toNat - (s.get .a0).toNat ≤ 8 * n ∧
      8 * n < (s.get .a1).toNat - (s.get .a0).toNat + 8 := by
    rw [← size, roundUp]
    omega
  have opposite : ∀ v w, Test.ge.holds v w = !Test.lt.holds v w := fun _ _ => rfl
  have further : ∀ i, (s.get .a0).toNat + 8 * i < 2 ^ 63 →
      Test.ge.holds (s.get .a0 + BitVec.ofNat 64 (8 * i)) (s.get .a1) =
        !decide ((s.get .a0).toNat + 8 * i < (s.get .a1).toNat) := by
    intro i below
    have place : (s.get .a0 + BitVec.ofNat 64 (8 * i)).toNat = (s.get .a0).toNat + 8 * i := by
      rw [BitVec.toNat_add, BitVec.toNat_ofNat]
      omega
    rw [opposite, holds_below (.inl rfl) (by omega) (by omega), place]
  rw [size]
  apply zero_section_run code start (by omega)
  · intro i less
    rw [further i (by omega), decide_eq_true (by omega)]
    rfl
  · rw [further n (by omega), decide_eq_false (by omega)]
    rfl

end Clearing

section Sections

variable {p : List Instr} {k n i : Nat} {s u : State}

structure Placing (s : State) (k i : Nat) (u : State) : Prop where
  pc : u.pc = k + 1
  source : u.get .a0 = s.get .a0 + BitVec.ofNat 64 (8 * i)
  place : u.get .a1 = s.get .a1 + BitVec.ofNat 64 (8 * i)
  mem : u.mem = copied s.mem (s.get .a1) (s.get .a0) (8 * i)
  same : u.get .a2 = s.get .a2 ∧ u.get .ra = s.get .ra

theorem Placing.round (code : At p k (copy_section k)) (fits : 8 * (i + 1) ≤ 2 ^ 64)
    (ahead : (s.get .a0 - s.get .a1).toNat + 8 * (i + 1) ≤ 2 ^ 64)
    (more : s.get .a1 + BitVec.ofNat 64 (8 * i) ≠ s.get .a2) (c : Placing s k i u) :
    Run p (Placing s k (i + 1)) u := by
  rcases u with ⟨pc, regs, mem, csr⟩
  obtain ⟨at', source, place, stored, same⟩ := c
  cases at'
  rw [← place, ← same.1] at more
  have unlike : Test.eq.holds (regs .a1) (regs .a2) = false := beq_false_of_ne more
  refine Run.passed (code.fetch (i := 1) rfl) unlike ?_
  apply Run.next (code.fetch (i := 2) rfl)
  apply Run.next (code.fetch (i := 3) rfl)
  apply Run.next (code.fetch (i := 4) rfl)
  apply Run.next (code.fetch (i := 5) rfl)
  apply Run.next (code.fetch (i := 6) rfl)
  refine .done ⟨rfl, ?_, ?_, ?_, same⟩
  · rw [Nat.mul_succ, BitVec.ofNat_add, ← BitVec.add_assoc]
    exact congrArg (· + BitVec.ofNat 64 8) source
  · rw [Nat.mul_succ, BitVec.ofNat_add, ← BitVec.add_assoc]
    exact congrArg (· + BitVec.ofNat 64 8) place
  · have zero : ∀ x : Word, x + 0 = x := BitVec.add_zero
    change write mem 8 (regs .a1 + 0) (read mem 8 (regs .a0 + 0)) = _
    have source' : regs .a0 = _ := source
    have place' : regs .a1 = _ := place
    have stored' : mem = _ := stored
    rw [zero, zero, write_read (by decide), source', place', stored', Nat.mul_succ]
    exact copied_more fits (by decide) ahead

theorem copied_self (mem : Memory) (a : Word) (m : Nat) : copied mem a a m = mem := by
  funext x
  have same : a + (x - a) = x := by bv_omega
  unfold copied
  rw [same, ite_self]

theorem copy_section_copies (code : At p k (copy_section k)) (start : s.pc = k)
    (whole : s.get .a1 = s.get .a0 ∨ 8 ∣ (s.get .a2 - s.get .a1).toNat)
    (ahead : (s.get .a0 - s.get .a1).toNat + (s.get .a2 - s.get .a1).toNat ≤ 2 ^ 64) :
    Run p (fun u => u.pc = k + 7 ∧ u.get .ra = s.get .ra ∧
      u.mem = copied s.mem (s.get .a1) (s.get .a0) (s.get .a2 - s.get .a1).toNat) s := by
  subst start
  rcases Decidable.em (s.get .a1 = s.get .a0) with here | apart
  · apply Run.taken (code.fetch (i := 0) rfl) (beq_iff_eq.mpr here)
    rw [here, copied_self]
    exact .done ⟨rfl, rfl, rfl⟩
  · obtain ⟨n, size⟩ := whole.resolve_left apart
    have fits := (s.get .a2 - s.get .a1).isLt
    have back : s.get .a1 + (s.get .a2 - s.get .a1) = s.get .a2 := by bv_omega
    rw [size] at ahead fits ⊢
    have first : Run p (Placing s s.pc 0) s := by
      apply Run.passed (code.fetch (i := 0) rfl) (beq_false_of_ne apart)
      exact .done ⟨rfl, (BitVec.add_zero _).symm, (BitVec.add_zero _).symm, rfl, rfl, rfl⟩
    have more : ∀ i < n, s.get .a1 + BitVec.ofNat 64 (8 * i) ≠ s.get .a2 := by
      intro i less same
      have distance : s.get .a2 - s.get .a1 = BitVec.ofNat 64 (8 * i) := by
        rw [← same]
        bv_omega
      have value := congrArg BitVec.toNat distance
      rw [size, BitVec.toNat_ofNat] at value
      omega
    apply first.bind
    intro t placed
    apply (Run.loop n (fun i less u => Placing.round code (by omega) (by omega) (more i less))
      placed).bind
    rintro ⟨pc, regs, mem, csr⟩ ⟨at', source, place, stored, same⟩
    cases at'
    have last : regs .a1 = regs .a2 := by
      have place' : regs .a1 = _ := place
      have same' : regs .a2 = _ := same.1
      rw [place', same', ← size, BitVec.ofNat_toNat, BitVec.setWidth_eq, back]
    have test : Test.eq.holds (regs .a1) (regs .a2) = true := beq_iff_eq.mpr last
    refine Run.taken (code.fetch (i := 1) rfl) test ?_
    exact .done ⟨rfl, same.2, stored⟩

theorem copy_section_endless (code : At p k (copy_section k)) (start : s.pc = k)
    (apart : s.get .a1 ≠ s.get .a0) (part : ¬ 8 ∣ (s.get .a2 - s.get .a1).toNat) :
    ¬ Run p (fun u => u.pc = k + 7) s := by
  apply Run.never (I := fun u => (∃ j < 7, u.pc = k + j ∧ (j = 0 → u.get .a1 ≠ u.get .a0)) ∧
    ¬ 8 ∣ (u.get .a2 - u.get .a1).toNat)
  · rintro u t ⟨⟨j, low, at', apart⟩, part⟩ one
    have unlike : u.get .a1 ≠ u.get .a2 := by
      intro same
      rw [same, BitVec.sub_self] at part
      exact part (Nat.dvd_zero 8)
    have less : ¬ 8 ∣ (u.get .a2 - (u.get .a1 + 8)).toNat := by
      bv_omega
    have pc : u.pc + 1 = k + (j + 1) := congrArg (· + 1) at'
    rcases j with _ | _ | _ | _ | _ | _ | _ | j
    · cases code.step (i := 0) rfl at' one
      refine ⟨⟨1, by decide, ?_, fun no => absurd no (by decide)⟩, part⟩
      change (if Test.eq.holds (u.get .a1) (u.get .a0) then k + 7 else u.pc + 1) = _
      rw [Test.holds, beq_false_of_ne (apart rfl)]
      exact pc
    · cases code.step (i := 1) rfl at' one
      refine ⟨⟨2, by decide, ?_, fun no => absurd no (by decide)⟩, part⟩
      change (if Test.eq.holds (u.get .a1) (u.get .a2) then k + 7 else u.pc + 1) = _
      rw [Test.holds, beq_false_of_ne unlike]
      exact pc
    · cases code.step (i := 2) rfl at' one
      exact ⟨⟨3, by decide, pc, fun no => absurd no (by decide)⟩, part⟩
    · cases code.step (i := 3) rfl at' one
      exact ⟨⟨4, by decide, pc, fun no => absurd no (by decide)⟩, part⟩
    · cases code.step (i := 4) rfl at' one
      exact ⟨⟨5, by decide, pc, fun no => absurd no (by decide)⟩, part⟩
    · cases code.step (i := 5) rfl at' one
      exact ⟨⟨6, by decide, pc, fun no => absurd no (by decide)⟩, less⟩
    · cases code.step (i := 6) rfl at' one
      exact ⟨⟨1, by decide, rfl, fun no => absurd no (by decide)⟩, part⟩
    · omega
  · rintro u ⟨⟨j, low, at', -⟩, -⟩ done'
    omega
  · exact ⟨⟨0, by decide, start, fun _ => apart⟩, part⟩

/-- It comes back if and only if there is nothing to copy or only whole 8 bytes. -/
theorem copy_section_iff (code : At p k (copy_section k)) (start : s.pc = k)
    (ahead : (s.get .a0 - s.get .a1).toNat + (s.get .a2 - s.get .a1).toNat ≤ 2 ^ 64) :
    Run p (fun u => u.pc = k + 7 ∧ u.get .ra = s.get .ra ∧
      u.mem = copied s.mem (s.get .a1) (s.get .a0) (s.get .a2 - s.get .a1).toNat) s ↔
        s.get .a1 = s.get .a0 ∨ 8 ∣ (s.get .a2 - s.get .a1).toNat := by
  constructor
  · intro run
    rcases Decidable.em (s.get .a1 = s.get .a0) with here | apart
    · exact .inl here
    · apply Or.inr
      apply Decidable.byContradiction
      intro part
      exact copy_section_endless code start apart part (run.mono fun _ returned => returned.1)
  · rintro (here | whole)
    · exact copy_section_copies code start (.inl here) ahead
    · exact copy_section_copies code start (.inr whole) ahead

theorem copy_section_sixteen :
    Run (copy_section 0) (fun u => u.pc = 7 ∧ u.get .ra = 0x100 ∧
      u.mem = copied (fun x => UInt8.ofNat x.toNat) 0x1000 0x2000 16) (called 0x2000 0x1000 0x1010) :=
  (copy_section_iff (s := called 0x2000 0x1000 0x1010) (k := 0) (p := copy_section 0) rfl rfl
    (by decide)).mpr (.inr (by decide))

end Sections

end MultiZone.Startup
