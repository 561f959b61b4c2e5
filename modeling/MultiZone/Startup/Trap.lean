import MultiZone.Riscv.Frames

/-! trap_vector of mss_entry.S: what a trap leaves of the registers. The size of the context is
another file's. -/
namespace MultiZone.Startup
open Riscv

def mepc : Nat := 0x341
def mbadaddr : Nat := 0x343

/-- In the order of the stores. -/
def preserved : List (Reg × Nat) := [(.sp, 2), (.a0, 10), (.a1, 11), (.ra, 1), (.gp, 3), (.tp, 4),
  (.t0, 5), (.t1, 6), (.t2, 7), (.s0, 8), (.s1, 9), (.a2, 12), (.a3, 13), (.a4, 14), (.a5, 15),
  (.a6, 16), (.a7, 17), (.s2, 18), (.s3, 19), (.s4, 20), (.s5, 21), (.s6, 22), (.s7, 23), (.s8, 24),
  (.s9, 25), (.s10, 26), (.s11, 27), (.t3, 28), (.t4, 29), (.t5, 30), (.t6, 31)]

/-- In the order of the loads; the stack pointer comes after them. -/
def restored : List (Reg × Nat) := [(.ra, 1), (.gp, 3), (.tp, 4), (.t0, 5), (.t1, 6), (.t2, 7),
  (.s0, 8), (.s1, 9), (.a0, 10), (.a1, 11), (.a2, 12), (.a3, 13), (.a4, 14), (.a5, 15), (.a6, 16),
  (.a7, 17), (.s2, 18), (.s3, 19), (.s4, 20), (.s5, 21), (.s6, 22), (.s7, 23), (.s8, 24), (.s9, 25),
  (.s10, 26), (.s11, 27), (.t3, 28), (.t4, 29), (.t5, 30), (.t6, 31)]

/-- Up to mret. -/
def trap_vector (size : Word) (handler : Nat) : List Instr :=
  [.addi .sp .sp (-size)] ++
  /- 1 -/ preserved.map save ++
  /- 32 -/ [.addi .a0 .sp 0, .csrr .a1 mbadaddr, .csrr .a2 mepc, .call handler] ++
  /- restore_regs: 36 -/ restored.map restore ++
  /- 66 -/ [restore (.sp, 2), .addi .sp .sp size]

/-- A handler comes back with the stack pointer and the context as they were. -/
def Returns (p : List Instr) (handler : Nat) (H : Memory → Memory → Prop) : Prop :=
  ∀ u, u.pc = handler → u.get .a0 = u.get .sp → Run p (fun v => v.pc = (u.get .ra).toNat ∧
    v.get .sp = u.get .sp ∧ H u.mem v.mem ∧
    ∀ x, (x - u.get .sp).toNat < 256 → v.mem x = u.mem x) u

section Restoring

variable {p : List Instr} {k handler : Nat} {s : State} {size : Word} {H : Memory → Memory → Prop}

theorem preserved_slots : (∀ q ∈ preserved, q.2 < 32) ∧ (preserved.map Prod.snd).Nodup := by
  decide

theorem restored_registers : (restored.map Prod.fst).Nodup ∧
    (∀ q ∈ restored, q.1 ≠ .sp ∧ q.1 ≠ .zero) ∧ ∀ q ∈ restored, q ∈ preserved := by
  decide

theorem restored_all (r : Reg) : r = .zero ∨ r = .sp ∨ ∃ q ∈ restored, q.1 = r := by
  cases r <;> decide

theorem slot_context {sp x : Word} {i : Nat} (small : i < 32) (inside : (x - slot sp i).toNat < 8) :
    (x - sp).toNat < 256 := by
  unfold slot at inside
  bv_omega

def Saved (s : State) (size : Word) (mem : Memory) : Prop :=
  ∀ q ∈ preserved, read mem 8 (slot (s.get .sp - size) q.2) =
    (exec s (.addi .sp .sp (-size))).get q.1

theorem Saved.congr {mem mem' : Memory} (saved : Saved s size mem)
    (same : ∀ x, (x - (s.get .sp - size)).toNat < 256 → mem' x = mem x) : Saved s size mem' := by
  intro q mem
  rw [← saved q mem]
  apply read_congr (by decide)
  intro x inside
  exact same x (slot_context (preserved_slots.1 q mem) inside)

theorem trap_vector_saves (code : At p k (trap_vector size handler)) (start : s.pc = k)
    (fits : k + 36 < 2 ^ 64) :
    Run p (fun u => u.pc = handler ∧ u.get .a0 = u.get .sp ∧ (u.get .ra).toNat = k + 36 ∧
      u.get .sp = s.get .sp - size ∧ Saved s size u.mem ∧
      ∀ x, ¬ (x - (s.get .sp - size)).toNat < 256 → u.mem x = s.mem x) s := by
  have saves : At p (k + 1) (preserved.map save) := code.left.left.left.right
  have calls : At p (k + 32) [.addi .a0 .sp 0, .csrr .a1 mbadaddr, .csrr .a2 mepc, .call handler] :=
    code.left.left.right
  obtain ⟨low, distinct⟩ := preserved_slots
  subst start
  apply Run.next (code.left.left.left.left.fetch (i := 0) rfl)
  have base : (exec s (.addi .sp .sp (-size))).get .sp = s.get .sp - size :=
    (BitVec.sub_eq_add_neg _ _).symm
  apply (saves_run (s := exec s (.addi .sp .sp (-size))) saves rfl low distinct).bind
  rw [base]
  rintro ⟨pc, regs, mem, csr⟩ ⟨at₁, regs₁, -, stored, same⟩
  cases at₁
  have sp₁ : regs .sp = s.get .sp - size := (congrFun regs₁ .sp).trans base
  apply Run.next (calls.fetch (i := 0) rfl)
  apply Run.next (calls.fetch (i := 1) rfl)
  apply Run.next (calls.fetch (i := 2) rfl)
  apply Run.next (calls.fetch (i := 3) rfl)
  refine .done ⟨rfl, BitVec.add_zero (regs .sp), Nat.mod_eq_of_lt fits, sp₁, stored, ?_⟩
  intro x outside
  apply same
  intro q mem' inside
  exact outside (slot_context (low q mem') inside)

theorem restore_regs {v : State} (loads : At p (k + 36) (restored.map restore))
    (last : At p (k + 66) [restore (.sp, 2), .addi .sp .sp size]) (start : v.pc = k + 36)
    (base : v.get .sp = s.get .sp - size) (saved : Saved s size v.mem) :
    Run p (fun w => w.pc = k + 68 ∧ (∀ r, w.get r = s.get r) ∧ w.mem = v.mem) v := by
  obtain ⟨once, other, among⟩ := restored_registers
  apply (restores_run loads start once other).bind
  rw [base]
  rintro w ⟨at', mem, -, loaded, kept⟩
  have sp : w.get .sp = s.get .sp - size := (kept .sp (by decide)).trans base
  have pc : w.pc = k + 66 := at'
  have load : p[w.pc]? = some (restore (.sp, 2)) := pc ▸ last.fetch (i := 0) rfl
  have addi : p[(exec w (restore (.sp, 2))).pc]? = some (.addi .sp .sp size) := by
    change p[w.pc + 1]? = _
    rw [pc]
    exact last.fetch (i := 1) rfl
  apply Run.next load
  apply Run.next addi
  refine .done ⟨congrArg (· + 1 + 1) pc, ?_, mem⟩
  intro r
  rcases restored_all r with rfl | rfl | ⟨q, mem', rfl⟩
  · rfl
  · have pointer : (exec s (.addi .sp .sp (-size))).get .sp = s.get .sp + -size := rfl
    change read w.mem 8 (slot (w.get .sp) 2) + size = s.get .sp
    rw [mem, sp, saved (.sp, 2) (by decide), pointer]
    bv_omega
  · have unlike := (other q mem').1
    have value : w.get q.1 = s.get q.1 := by
      rw [loaded q mem', saved q (among q mem')]
      exact get_set_ne unlike
    rw [← value]
    exact (get_set_ne unlike).trans (get_set_ne unlike)

theorem trap_vector_restores (code : At p k (trap_vector size handler)) (start : s.pc = k)
    (fits : k + 36 < 2 ^ 64) (handles : Returns p handler H) :
    Run p (fun v => v.pc = k + 68 ∧ (∀ r, v.get r = s.get r) ∧
      ∃ mem, H mem v.mem ∧
        ∀ x, ¬ (x - (s.get .sp - size)).toNat < 256 → mem x = s.mem x) s := by
  apply (trap_vector_saves code start fits).bind
  rintro u ⟨called, argument, back, base, saved, outside⟩
  apply (handles u called argument).bind
  rintro v ⟨returned, sp, handled, kept⟩
  have saved' : Saved s size v.mem := saved.congr (base ▸ kept)
  apply (restore_regs code.left.right code.right (returned.trans back) (sp.trans base) saved').bind
  rintro w ⟨pc, regs, same⟩
  exact .done ⟨pc, regs, u.mem, same.symm ▸ handled, outside⟩

/-- With a handler that spoils a register. -/
def trapped : List Instr := trap_vector 256 69 ++ [.nop, .li .t0 7, .ret]

theorem trapped_returns : Returns trapped 69 fun mem mem' => mem' = mem := by
  rintro ⟨pc, regs, mem, csr⟩ at' -
  cases at'
  apply Run.next (i := .li .t0 7) rfl
  apply Run.next (i := .ret) rfl
  exact .done ⟨rfl, rfl, rfl, fun _ _ => rfl⟩

theorem trap_vector_restores_t0 :
    Run trapped (fun v => v.pc = 68 ∧
      (∀ r, v.get r = (State.mk 0 (fun _ => 0x80001000) (fun _ => 0) fun _ => 0).get r) ∧
      ∃ mem, v.mem = mem ∧ ∀ x, ¬ (x - (0x80001000 - 256)).toNat < 256 → mem x = 0)
      ⟨0, fun _ => 0x80001000, fun _ => 0, fun _ => 0⟩ :=
  trap_vector_restores (s := ⟨0, fun _ => 0x80001000, fun _ => 0, fun _ => 0⟩) (p := trapped) (k := 0)
    rfl rfl (by decide) trapped_returns

end Restoring

end MultiZone.Startup
