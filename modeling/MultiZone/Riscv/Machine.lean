import Mathlib.Logic.Function.Basic
import Mathlib.Algebra.Group.Nat.Defs

/-! The part of RV64 that start-up code is written in. A program is a list of instructions, and the
address of an instruction is its index. -/
namespace Riscv

abbrev Word := BitVec 64

inductive Reg where
  | zero
  | ra
  | sp
  | gp
  | tp
  | t0
  | t1
  | t2
  | s0
  | s1
  | a0
  | a1
  | a2
  | a3
  | a4
  | a5
  | a6
  | a7
  | s2
  | s3
  | s4
  | s5
  | s6
  | s7
  | s8
  | s9
  | s10
  | s11
  | t3
  | t4
  | t5
  | t6
  deriving DecidableEq, Repr

inductive Test where
  | eq
  | ne
  | lt
  | ge
  | ltu
  | geu
  deriving DecidableEq, Repr

def Test.holds (v w : Word) : Test → Bool
  | eq => v == w
  | ne => v != w
  | lt => v.slt w
  | ge => !v.slt w
  | ltu => v.ult w
  | geu => !v.ult w

/-- A load and a store are of `n` bytes; a load extends the sign. -/
inductive Instr where
  | nop
  | li (rd : Reg) (v : Word)
  | csrr (rd : Reg) (csr : Nat)
  | addi (rd rs : Reg) (imm : Word)
  | and (rd rs rt : Reg)
  | load (n : Nat) (rd : Reg) (imm : Word) (rs : Reg)
  | store (n : Nat) (rt : Reg) (imm : Word) (rs : Reg)
  | branch (t : Test) (rs rt : Reg) (target : Nat)
  | jump (target : Nat)
  | call (target : Nat)
  | ret
  deriving DecidableEq, Repr

abbrev Memory := Word → UInt8

structure State where
  pc : Nat
  regs : Reg → Word
  mem : Memory
  csr : Nat → Word

section Access

def State.get (s : State) (r : Reg) : Word := if r = .zero then 0 else s.regs r

def State.set (s : State) (r : Reg) (v : Word) : State :=
  { s with regs := Function.update s.regs r v }

def State.put (s : State) (mem : Memory) : State := { s with mem := mem }

def State.goto (s : State) (pc : Nat) : State := { s with pc := pc }

def number (mem : Memory) : Nat → Word → Nat
  | 0, _ => 0
  | n + 1, a => (mem a).toNat + 256 * number mem n (a + 1)

def read (mem : Memory) (n : Nat) (a : Word) : Word :=
  (BitVec.ofNat (8 * n) (number mem n a)).signExtend 64

def write (mem : Memory) (n : Nat) (a v : Word) : Memory := fun x =>
  if (x - a).toNat < n then UInt8.ofNat (v.toNat / 256 ^ (x - a).toNat) else mem x

variable {s : State} {r r' : Reg} {v : Word} {mem : Memory} {pc : Nat}

@[simp] theorem get_zero (s : State) : s.get .zero = 0 := rfl

theorem get_set_self (some' : r ≠ .zero) : (s.set r v).get r = v := by
  rw [State.get, if_neg some']
  exact Function.update_self r v s.regs

theorem get_set_ne (other : r' ≠ r) : (s.set r v).get r' = s.get r' := by
  unfold State.get State.set
  dsimp only
  rw [Function.update_of_ne other]

@[simp] theorem set_mem : (s.set r v).mem = s.mem := rfl
@[simp] theorem set_csr : (s.set r v).csr = s.csr := rfl
@[simp] theorem set_pc : (s.set r v).pc = s.pc := rfl
@[simp] theorem put_mem : (s.put mem).mem = mem := rfl
@[simp] theorem put_csr : (s.put mem).csr = s.csr := rfl
@[simp] theorem put_pc : (s.put mem).pc = s.pc := rfl
@[simp] theorem put_get : (s.put mem).get r = s.get r := rfl
@[simp] theorem goto_mem : (s.goto pc).mem = s.mem := rfl
@[simp] theorem goto_csr : (s.goto pc).csr = s.csr := rfl
@[simp] theorem goto_pc : (s.goto pc).pc = pc := rfl
@[simp] theorem goto_get : (s.goto pc).get r = s.get r := rfl

end Access

section Running

def exec (s : State) : Instr → State
  | .nop => s.goto (s.pc + 1)
  | .li rd v => (s.set rd v).goto (s.pc + 1)
  | .csrr rd csr => (s.set rd (s.csr csr)).goto (s.pc + 1)
  | .addi rd rs imm => (s.set rd (s.get rs + imm)).goto (s.pc + 1)
  | .and rd rs rt => (s.set rd (s.get rs &&& s.get rt)).goto (s.pc + 1)
  | .load n rd imm rs => (s.set rd (read s.mem n (s.get rs + imm))).goto (s.pc + 1)
  | .store n rt imm rs =>
    (s.put (write s.mem n (s.get rs + imm) (s.get rt))).goto (s.pc + 1)
  | .branch t rs rt target => s.goto (if t.holds (s.get rs) (s.get rt) then target else s.pc + 1)
  | .jump target => s.goto target
  | .call target => (s.set .ra (BitVec.ofNat 64 (s.pc + 1))).goto target
  | .ret => s.goto (s.get .ra).toNat

/-- There is no step behind the end of the program. -/
def step (p : List Instr) (s : State) : Option State := p[s.pc]?.map (exec s)

def At (p : List Instr) (k : Nat) (code : List Instr) : Prop := (p.drop k).take code.length = code

theorem At.fetch {p code : List Instr} {k i : Nat} {x : Instr} (placed : At p k code)
    (get : code[i]? = some x) : p[k + i]? = some x := by
  have inside : i < code.length := (List.getElem?_eq_some_iff.mp get).1
  rw [← placed, List.getElem?_take_of_lt inside, List.getElem?_drop] at get
  exact get

theorem At.left {p code code' : List Instr} {k : Nat} (placed : At p k (code ++ code')) :
    At p k code := by
  have first := congrArg (List.take code.length) placed
  rw [List.take_take, List.length_append, Nat.min_eq_left (Nat.le_add_right _ _),
    List.take_left'] at first
  · exact first
  · rfl

theorem At.right {p code code' : List Instr} {k : Nat} (placed : At p k (code ++ code')) :
    At p (k + code.length) code' := by
  have rest := congrArg (List.drop code.length) placed
  rw [List.drop_take, List.length_append, Nat.add_sub_cancel_left, List.drop_drop,
    List.drop_left'] at rest
  · exact rest
  · rfl

theorem At.step {p code : List Instr} {k i : Nat} {x : Instr} {s t : State} (placed : At p k code)
    (get : code[i]? = some x) (pc : s.pc = k + i) (one : Riscv.step p s = some t) :
    t = exec s x := by
  rw [Riscv.step, pc, placed.fetch get] at one
  exact (Option.some.inj one).symm

/-- The program gets to a state with the property. -/
inductive Run (p : List Instr) (Q : State → Prop) : State → Prop where
  | done {s : State} : Q s → Run p Q s
  | step {s t : State} : step p s = some t → Run p Q t → Run p Q s

variable {p : List Instr} {Q R : State → Prop} {s : State}

theorem Run.next {i : Instr} (fetch : p[s.pc]? = some i) (rest : Run p Q (exec s i)) : Run p Q s :=
  .step (by rw [Riscv.step, fetch]; rfl) rest

theorem Run.taken {t : Test} {a b : Reg} {k : Nat} (fetch : p[s.pc]? = some (.branch t a b k))
    (test : t.holds (s.get a) (s.get b) = true) (rest : Run p Q (s.goto k)) : Run p Q s := by
  apply Run.next fetch
  rw [exec, test, if_pos rfl]
  exact rest

theorem Run.passed {t : Test} {a b : Reg} {k : Nat} (fetch : p[s.pc]? = some (.branch t a b k))
    (test : t.holds (s.get a) (s.get b) = false) (rest : Run p Q (s.goto (s.pc + 1))) :
    Run p Q s := by
  apply Run.next fetch
  rw [exec, test, if_neg Bool.false_ne_true]
  exact rest

theorem Run.bind (run : Run p Q s) (rest : ∀ t, Q t → Run p R t) : Run p R s := by
  induction run with
  | done holds => exact rest _ holds
  | step one _ ih => exact .step one ih

theorem Run.mono (run : Run p Q s) (weaker : ∀ t, Q t → R t) : Run p R s :=
  run.bind fun t holds => .done (weaker t holds)

/-- What a round takes from one number to the next, it takes from 0 to any number. -/
theorem Run.loop {I : Nat → State → Prop} (n : Nat)
    (round : ∀ i < n, ∀ t, I i t → Run p (I (i + 1)) t) (start : I 0 s) : Run p (I n) s := by
  induction n with
  | zero => exact .done start
  | succ n ih =>
    apply (ih fun i low => round i (Nat.lt_succ_of_lt low)).bind
    exact round n (Nat.lt_succ_self n)

/-- What every step keeps and what is never the property: then the program does not get there. -/
theorem Run.never {I : State → Prop} (keep : ∀ s t, I s → Riscv.step p s = some t → I t)
    (apart : ∀ s, I s → ¬ Q s) (start : I s) : ¬ Run p Q s := by
  intro run
  induction run with
  | done holds => exact apart _ start holds
  | step one _ ih => exact ih (keep _ _ start one)

end Running

end Riscv
