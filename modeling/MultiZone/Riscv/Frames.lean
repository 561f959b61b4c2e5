import MultiZone.Riscv.Blocks

/-! Registers that are kept in memory: each in a slot of 8 bytes above the stack pointer. -/
namespace Riscv

section Words

variable {mem mem' : Memory} {a v : Word} {n m : Nat}

theorem number_digits (digits : ∀ i < n, (mem (a + BitVec.ofNat 64 i)).toNat = m / 256 ^ i % 256) :
    number mem n a = m % 256 ^ n := by
  induction n generalizing a m with
  | zero => rw [number, Nat.pow_zero, Nat.mod_one]
  | succ n ih =>
    have first := digits 0 n.succ_pos
    have rest : number mem n (a + 1) = m / 256 % 256 ^ n := by
      apply ih
      intro i low
      have digit := digits (i + 1) (Nat.succ_lt_succ low)
      have next : a + 1 + BitVec.ofNat 64 i = a + BitVec.ofNat 64 (i + 1) := by bv_omega
      rw [next, digit, Nat.pow_succ', Nat.div_div_eq_div_mul]
    rw [Nat.pow_zero, Nat.div_one] at first
    have here : a + BitVec.ofNat 64 0 = a := BitVec.add_zero a
    rw [here] at first
    rw [number, rest, first, Nat.pow_succ', Nat.mod_mul]

theorem read_write (mem : Memory) (a v : Word) : read (write mem 8 a v) 8 a = v := by
  have digits : ∀ i < 8, (write mem 8 a v (a + BitVec.ofNat 64 i)).toNat = v.toNat / 256 ^ i % 256 := by
    intro i low
    have place : (a + BitVec.ofNat 64 i - a).toNat = i := by bv_omega
    rw [write, place, if_pos low, UInt8.toNat_ofNat']
  rw [read, number_digits digits]
  have whole : v.toNat % 256 ^ 8 = v.toNat := Nat.mod_eq_of_lt v.isLt
  rw [whole]
  change (BitVec.ofNat 64 v.toNat).signExtend 64 = v
  rw [BitVec.ofNat_toNat, BitVec.setWidth_eq, BitVec.signExtend_eq]

theorem read_congr (small : n ≤ 8) (same : ∀ x, (x - a).toNat < n → mem x = mem' x) :
    read mem n a = read mem' n a := by
  have digits : ∀ i < n, (mem (a + BitVec.ofNat 64 i)).toNat = number mem' n a / 256 ^ i % 256 := by
    intro i low
    have place : (a + BitVec.ofNat 64 i - a).toNat = i := by bv_omega
    rw [number_byte low, same _ (by rw [place]; exact low)]
  have digits' : ∀ i < n, (mem' (a + BitVec.ofNat 64 i)).toNat = number mem' n a / 256 ^ i % 256 :=
    fun i low => (number_byte low a).symm
  rw [read, read, number_digits digits, number_digits digits', Nat.mod_mod]

end Words

section Slots

def slot (sp : Word) (i : Nat) : Word := sp + BitVec.ofNat 64 (8 * i)

def save (q : Reg × Nat) : Instr := .store 8 q.1 (BitVec.ofNat 64 (8 * q.2)) .sp

def restore (q : Reg × Nat) : Instr := .load 8 q.1 (BitVec.ofNat 64 (8 * q.2)) .sp

variable {p : List Instr} {k : Nat} {s : State} {l : List (Reg × Nat)} {sp : Word}

theorem slot_apart {i j : Nat} (small : i < 32) (small' : j < 32) (apart : i ≠ j) {x : Word}
    (inside : (x - slot sp i).toNat < 8) : ¬ (x - slot sp j).toNat < 8 := by
  unfold slot at inside ⊢
  bv_omega

theorem saves_run (code : At p k (l.map save)) (pc : s.pc = k) (small : ∀ q ∈ l, q.2 < 32)
    (apart : (l.map Prod.snd).Nodup) :
    Run p (fun u => u.pc = k + l.length ∧ u.regs = s.regs ∧ u.csr = s.csr ∧
      (∀ q ∈ l, read u.mem 8 (slot (s.get .sp) q.2) = s.get q.1) ∧
      ∀ x, (∀ q ∈ l, ¬ (x - slot (s.get .sp) q.2).toNat < 8) → u.mem x = s.mem x) s := by
  induction l generalizing k s with
  | nil => exact .done ⟨pc, rfl, rfl, fun _ no => absurd no List.not_mem_nil, fun _ _ => rfl⟩
  | cons q l ih =>
    subst pc
    obtain ⟨new, apart⟩ := List.nodup_cons.mp apart
    have first := code.fetch (i := 0) rfl
    have rest : At p (s.pc + 1) (l.map save) := @At.right p [save q] _ _ code
    apply Run.next first
    have later := ih (s := exec s (save q)) rest rfl (fun q' mem => small q' (.tail _ mem)) apart
    apply later.mono
    rintro u ⟨at', regs, csr, stored, same⟩
    refine ⟨?_, regs, csr, ?_, ?_⟩
    · rw [at', List.length_cons, Nat.add_assoc, Nat.add_comm 1]
    · intro q' mem
      rcases List.mem_cons.mp mem with rfl | mem
      · have here : read (write s.mem 8 (slot (s.get .sp) q'.2) (s.get q'.1)) 8
            (slot (s.get .sp) q'.2) = s.get q'.1 := read_write _ _ _
        rw [← here]
        apply read_congr (by decide)
        intro x inside
        apply same
        intro q' mem'
        apply slot_apart (small _ mem) (small _ (.tail _ mem')) _ inside
        intro equal
        exact new (equal ▸ List.mem_map_of_mem mem')
      · exact stored q' mem
    · intro x outside
      rw [same x fun q' mem => outside q' (.tail _ mem)]
      exact if_neg (outside q (.head _))

theorem restores_run (code : At p k (l.map restore)) (pc : s.pc = k) (apart : (l.map Prod.fst).Nodup)
    (other : ∀ q ∈ l, q.1 ≠ .sp ∧ q.1 ≠ .zero) :
    Run p (fun u => u.pc = k + l.length ∧ u.mem = s.mem ∧ u.csr = s.csr ∧
      (∀ q ∈ l, u.get q.1 = read s.mem 8 (slot (s.get .sp) q.2)) ∧
      ∀ r, r ∉ l.map Prod.fst → u.get r = s.get r) s := by
  induction l generalizing k s with
  | nil => exact .done ⟨pc, rfl, rfl, fun _ no => absurd no List.not_mem_nil, fun _ _ => rfl⟩
  | cons q l ih =>
    subst pc
    obtain ⟨new, apart⟩ := List.nodup_cons.mp apart
    have rest : At p (s.pc + 1) (l.map restore) := @At.right p [restore q] _ _ code
    have base : (exec s (restore q)).get .sp = s.get .sp := by
      have unlike := (other q (.head _)).1.symm
      exact get_set_ne unlike
    apply Run.next (code.fetch (i := 0) rfl)
    have later := ih (s := exec s (restore q)) rest rfl apart fun q' mem => other q' (.tail _ mem)
    rw [base] at later
    apply later.mono
    rintro u ⟨at', mem, csr, loaded, same⟩
    refine ⟨?_, mem, csr, ?_, ?_⟩
    · rw [at', List.length_cons, Nat.add_assoc, Nat.add_comm 1]
    · intro q' among
      rcases List.mem_cons.mp among with rfl | among
      · rw [same _ new]
        exact get_set_self (other _ (.head _)).2
      · exact loaded q' among
    · intro r outside
      obtain ⟨unlike, outside⟩ := not_or.mp fun either => outside (List.mem_cons.mpr either)
      rw [same r outside]
      exact get_set_ne unlike

end Slots

end Riscv
