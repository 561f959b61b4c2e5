import MultiZone.Riscv.Machine
import MultiZone.Memory.Layout

/-! Loops over blocks of memory: what they leave, by the number of bytes they have gone through. -/
namespace Riscv
open Memory (roundUp)

section Blocks

/-- Memory with `n` bytes from the address on set to one value. -/
def fill (mem : Memory) (a : Word) (n : Nat) (v : UInt8) : Memory := fun x =>
  if (x - a).toNat < n then v else mem x

/-- Memory with `n` bytes from `src` copied to `dst`. -/
def copied (mem : Memory) (dst src : Word) (n : Nat) : Memory := fun x =>
  if (x - dst).toNat < n then mem (src + (x - dst)) else mem x

def Between (a b x : Word) : Prop := a.toNat ≤ x.toNat ∧ x.toNat < b.toNat

instance (a b x : Word) : Decidable (Between a b x) := inferInstanceAs (Decidable (_ ∧ _))

variable {mem : Memory} {a b dst src : Word} {i n : Nat}

theorem between_iff (order : a.toNat ≤ b.toNat) (x : Word) :
    (x - a).toNat < b.toNat - a.toNat ↔ Between a b x := by
  have hx := x.isLt
  have hb := b.isLt
  unfold Between
  rw [BitVec.toNat_sub]
  omega

theorem fill_between (order : a.toNat ≤ b.toNat) (x : Word) :
    fill mem a (b.toNat - a.toNat) 0 x = if Between a b x then 0 else mem x :=
  if_congr (between_iff order x) rfl rfl

theorem copied_between (order : a.toNat ≤ b.toNat) (x : Word) :
    copied mem a src (b.toNat - a.toNat) x =
      if Between a b x then mem (src + (x - a)) else mem x :=
  if_congr (between_iff order x) rfl rfl

theorem sub_add_ofNat (x : Word) (small : i < 2 ^ 64) :
    (x - (a + BitVec.ofNat 64 i)).toNat = ((x - a).toNat + (2 ^ 64 - i)) % 2 ^ 64 := by
  simp only [BitVec.toNat_sub, BitVec.toNat_add, BitVec.toNat_ofNat]
  have hx := x.isLt
  have ha := a.isLt
  omega

theorem fill_more (v : UInt8) (fits : i + n ≤ 2 ^ 64) (some' : 0 < n) :
    fill (fill mem a i v) (a + BitVec.ofNat 64 i) n v = fill mem a (i + n) v := by
  funext x
  have place := sub_add_ofNat (a := a) x (by omega : i < 2 ^ 64)
  have hx := (x - a).isLt
  unfold fill
  rw [place]
  rcases Nat.lt_or_ge (x - a).toNat i with before | after
  · rw [if_pos before, if_pos (by omega : (x - a).toNat < i + n)]
    split <;> rfl
  · rw [if_neg (Nat.not_lt.mpr after)]
    apply if_congr _ rfl rfl
    omega

theorem copied_more (fits : i + n ≤ 2 ^ 64) (some' : 0 < n)
    (ahead : (src - dst).toNat + (i + n) ≤ 2 ^ 64) :
    copied (copied mem dst src i) (dst + BitVec.ofNat 64 i) (src + BitVec.ofNat 64 i) n =
      copied mem dst src (i + n) := by
  funext x
  have place := sub_add_ofNat (a := dst) x (by omega : i < 2 ^ 64)
  have hx := (x - dst).isLt
  have from' : src + BitVec.ofNat 64 i + (x - (dst + BitVec.ofNat 64 i)) = src + (x - dst) := by
    bv_omega
  unfold copied
  rw [place, from']
  rcases Nat.lt_or_ge (x - dst).toNat i with before | after
  · rw [if_neg (by omega), if_pos before, if_pos (by omega)]
  · rw [if_neg (Nat.not_lt.mpr after)]
    rcases Nat.lt_or_ge (x - dst).toNat (i + n) with inside | beyond
    · have unread : ¬ (src + (x - dst) - dst).toNat < i := by
        have sum : src + (x - dst) - dst = (src - dst) + (x - dst) := by bv_omega
        rw [sum, BitVec.toNat_add, Nat.mod_eq_of_lt (by omega)]
        omega
      rw [if_pos (by omega), if_pos inside, if_neg unread]
    · rw [if_neg (by omega), if_neg (by omega)]

theorem write_zero : write mem n a 0 = fill mem a n 0 := by
  funext x
  unfold write fill
  rw [show (0 : Word).toNat = 0 from rfl, Nat.zero_div]
  rfl

theorem write_one (v : Word) : write mem 1 a v = fill mem a 1 (UInt8.ofNat v.toNat) := by
  funext x
  unfold write fill
  split
  · rename_i first
    rw [Nat.lt_one_iff.mp first, Nat.pow_zero, Nat.div_one]
  · rfl

theorem number_byte (inside : i < n) (a : Word) :
    number mem n a / 256 ^ i % 256 = (mem (a + BitVec.ofNat 64 i)).toNat := by
  induction n generalizing a i with
  | zero => cases inside
  | succ n ih =>
    have low := (mem a).toNat_lt
    cases i with
    | zero =>
      rw [number, Nat.pow_zero, Nat.div_one, Nat.add_mul_mod_self_left, Nat.mod_eq_of_lt low]
      exact congrArg (fun b => (mem b).toNat) (BitVec.add_zero a).symm
    | succ i =>
      have later := ih (Nat.lt_of_succ_lt_succ inside) (a + 1)
      have next : a + 1 + BitVec.ofNat 64 i = a + BitVec.ofNat 64 (i + 1) := by bv_omega
      rw [next] at later
      rw [number, Nat.pow_succ, Nat.mul_comm (256 ^ i), ← Nat.div_div_eq_div_mul,
        Nat.add_mul_div_left _ _ (by decide), Nat.div_eq_of_lt low, Nat.zero_add, later]

/-- The bytes that have been read do not depend on the sign. -/
theorem read_byte (small : n ≤ 8) (inside : i < n) (a : Word) :
    (read mem n a).toNat / 256 ^ i % 256 = (mem (a + BitVec.ofNat 64 i)).toNat := by
  have power : ∀ m, 2 ^ (8 * m) = 256 ^ m := fun m => Nat.pow_mul 2 8 m
  have split' : 256 ^ n = 256 ^ i * (256 * 256 ^ (n - i - 1)) := by
    rw [← Nat.pow_succ', ← Nat.pow_add]
    congr 1
    omega
  have wraps : ∀ m k, (m + k * 256 ^ n) / 256 ^ i % 256 = m / 256 ^ i % 256 := by
    intro m k
    rw [split', Nat.mul_left_comm, Nat.add_mul_div_left _ _ (Nat.pow_pos (by decide)),
      Nat.mul_left_comm, Nat.add_mul_mod_self_left]
  have cut : ∀ m, m % 256 ^ n / 256 ^ i % 256 = m / 256 ^ i % 256 := by
    intro m
    have whole := wraps (m % 256 ^ n) (m / 256 ^ n)
    rw [Nat.mul_comm, Nat.mod_add_div] at whole
    exact whole.symm
  have narrow : number mem n a % 2 ^ (8 * n) % 2 ^ 64 = number mem n a % 2 ^ (8 * n) := by
    apply Nat.mod_eq_of_lt
    apply Nat.lt_of_lt_of_le (Nat.mod_lt _ (Nat.pow_pos (by decide)))
    exact Nat.pow_le_pow_right (by decide) (by omega)
  rw [read, BitVec.toNat_signExtend, BitVec.toNat_setWidth, BitVec.toNat_ofNat, narrow]
  split
  · have multiple : ∃ k, 2 ^ 64 - 2 ^ (8 * n) = k * 256 ^ n := by
      refine ⟨256 ^ (8 - n) - 1, ?_⟩
      rw [Nat.sub_mul, ← Nat.pow_add, Nat.sub_add_cancel small, Nat.one_mul, power]
      rfl
    obtain ⟨k, same⟩ := multiple
    rw [same, wraps, power, cut, number_byte inside]
  · rw [Nat.add_zero, power, cut, number_byte inside]

theorem write_read (small : n ≤ 8) : write mem n dst (read mem n src) = copied mem dst src n := by
  funext x
  unfold write copied
  split
  · rename_i inside
    apply UInt8.toNat_inj.mp
    rw [UInt8.toNat_ofNat', read_byte small inside, BitVec.ofNat_toNat, BitVec.setWidth_eq]
  · rfl

end Blocks

section Loops

variable {p : List Instr} {k : Nat} {t : Test} {a b c r : Reg} {s : State} {n : Nat}

/-- A loop that stores zeros and goes on as long as the test holds after a round. -/
structure ClearLoop (p : List Instr) (k : Nat) (t : Test) (a b : Reg) : Prop where
  store : p[k]? = some (.store 8 .zero 0 a)
  addi : p[k + 1]? = some (.addi a a 8)
  branch : p[k + 2]? = some (.branch t a b k)
  some' : a ≠ .zero
  apart : b ≠ a

theorem ClearLoop.round (code : ClearLoop p k t a b) (start : s.pc = k) :
    ∃ u, (∀ Q, Run p Q u → Run p Q s) ∧
      u.pc = (if t.holds (s.get a + 8) (s.get b) then k else k + 3) ∧
      u.mem = fill s.mem (s.get a) 8 0 ∧ u.csr = s.csr ∧ u.get a = s.get a + 8 ∧
      ∀ r, r ≠ a → u.get r = s.get r := by
  subst start
  refine ⟨_, fun Q rest => .next code.store (.next code.addi (.next code.branch rest)), ?_, ?_, rfl,
    ?_, fun r other => ?_⟩
  · simp only [exec, goto_get, goto_pc, get_set_self code.some', get_set_ne code.apart]
    rfl
  · have same : s.get a + 0 = s.get a := BitVec.add_zero _
    change write s.mem 8 (s.get a + 0) 0 = _
    rw [write_zero, same]
  · simp only [exec, goto_get, get_set_self code.some']
    rfl
  · simp only [exec, goto_get, get_set_ne other]
    rfl

theorem ClearLoop.run (code : ClearLoop p k t a b) (start : s.pc = k) (fits : 8 * (n + 1) ≤ 2 ^ 64)
    (more : ∀ i, 1 ≤ i → i ≤ n → t.holds (s.get a + BitVec.ofNat 64 (8 * i)) (s.get b) = true)
    (last : t.holds (s.get a + BitVec.ofNat 64 (8 * (n + 1))) (s.get b) = false) :
    Run p (fun u => u.pc = k + 3 ∧ u.mem = fill s.mem (s.get a) (8 * (n + 1)) 0 ∧
      u.csr = s.csr ∧ ∀ r, r ≠ a → u.get r = s.get r) s := by
  obtain ⟨u, leads, pc, mem, csr, value, rest⟩ := code.round start
  apply leads
  induction n generalizing s u with
  | zero =>
    have stop : t.holds (s.get a + 8) (s.get b) = false := last
    rw [stop, if_neg Bool.false_ne_true] at pc
    exact .done ⟨pc, mem, csr, rest⟩
  | succ n ih =>
    have goes : t.holds (s.get a + 8) (s.get b) = true := more 1 (by omega) (by omega)
    have place : ∀ i, u.get a + BitVec.ofNat 64 (8 * i) = s.get a + BitVec.ofNat 64 (8 * (i + 1)) := by
      intro i
      rw [value]
      bv_omega
    rw [goes, if_pos rfl] at pc
    obtain ⟨u', leads', pc', mem', csr', value', rest'⟩ := code.round pc
    have later := ih pc (by omega)
      (fun i low high => by rw [place, rest b code.apart]; exact more (i + 1) (by omega) (by omega))
      (by rw [place, rest b code.apart]; exact last) u' leads' pc' mem' csr' value' rest'
    apply leads'
    apply later.mono
    rintro w ⟨pc, stored, kept, same⟩
    refine ⟨pc, ?_, kept.trans csr, fun r other => (same r other).trans (rest r other)⟩
    have total : 8 * (n + 1 + 1) = 8 + 8 * (n + 1) := by omega
    rw [stored, mem, value, total]
    exact fill_more 0 (by omega) (by omega)

/-- A loop that copies as long as the test holds after a round. -/
structure CopyLoop (p : List Instr) (k : Nat) (t : Test) (r a b c : Reg) : Prop where
  load : p[k]? = some (.load 8 r 0 a)
  store : p[k + 1]? = some (.store 8 r 0 b)
  addi : p[k + 2]? = some (.addi a a 8)
  addi' : p[k + 3]? = some (.addi b b 8)
  branch : p[k + 4]? = some (.branch t b c k)
  some' : r ≠ .zero ∧ a ≠ .zero ∧ b ≠ .zero
  apart : [r, a, b, c].Nodup

theorem CopyLoop.round (code : CopyLoop p k t r a b c) (start : s.pc = k) :
    ∃ u, (∀ Q, Run p Q u → Run p Q s) ∧
      u.pc = (if t.holds (s.get b + 8) (s.get c) then k else k + 5) ∧
      u.mem = copied s.mem (s.get b) (s.get a) 8 ∧ u.csr = s.csr ∧ u.get a = s.get a + 8 ∧
      u.get b = s.get b + 8 ∧ ∀ x, x ≠ r → x ≠ a → x ≠ b → u.get x = s.get x := by
  subst start
  obtain ⟨someR, someA, someB⟩ := code.some'
  have ⟨ra, rb, rc, ab, ac, bc⟩ : r ≠ a ∧ r ≠ b ∧ r ≠ c ∧ a ≠ b ∧ a ≠ c ∧ b ≠ c := by
    have apart := code.apart
    simp only [List.nodup_cons, List.mem_cons, List.not_mem_nil, or_false, not_or] at apart
    exact ⟨apart.1.1, apart.1.2.1, apart.1.2.2, apart.2.1.1, apart.2.1.2, apart.2.2.1⟩
  refine ⟨_, fun Q rest => .next code.load (.next code.store (.next code.addi (.next code.addi'
    (.next code.branch rest)))), ?_, ?_, rfl, ?_, ?_, fun x xr xa xb => ?_⟩
  · simp only [exec, goto_get, goto_pc, put_get, get_set_self someB, get_set_ne bc.symm,
      get_set_ne ac.symm, get_set_ne rc.symm, get_set_ne ab.symm, get_set_ne rb.symm]
  · have same : ∀ w : Word, w + 0 = w := BitVec.add_zero
    simp only [exec, goto_get, goto_mem, put_mem, set_mem, get_set_self someR, get_set_ne rb.symm,
      same]
    exact write_read (Nat.le_refl 8)
  · simp only [exec, goto_get, put_get, get_set_self someA, get_set_ne ab, get_set_ne ra.symm]
  · simp only [exec, goto_get, put_get, get_set_self someB, get_set_ne ab.symm, get_set_ne rb.symm]
  · simp only [exec, goto_get, put_get, get_set_ne xr, get_set_ne xa, get_set_ne xb]

theorem CopyLoop.run (code : CopyLoop p k t r a b c) (start : s.pc = k)
    (fits : 8 * (n + 1) ≤ 2 ^ 64)
    (more : ∀ i, 1 ≤ i → i ≤ n → t.holds (s.get b + BitVec.ofNat 64 (8 * i)) (s.get c) = true)
    (last : t.holds (s.get b + BitVec.ofNat 64 (8 * (n + 1))) (s.get c) = false)
    (ahead : (s.get a - s.get b).toNat + 8 * (n + 1) ≤ 2 ^ 64) :
    Run p (fun u => u.pc = k + 5 ∧ u.mem = copied s.mem (s.get b) (s.get a) (8 * (n + 1)) ∧
      u.csr = s.csr ∧ ∀ x, x ≠ r → x ≠ a → x ≠ b → u.get x = s.get x) s := by
  obtain ⟨u, leads, pc, mem, csr, valueA, valueB, rest⟩ := code.round start
  have other : c ≠ r ∧ c ≠ a ∧ c ≠ b := by
    have apart := code.apart
    simp only [List.nodup_cons, List.mem_cons, List.not_mem_nil, or_false, not_or] at apart
    exact ⟨Ne.symm apart.1.2.2, Ne.symm apart.2.1.2, Ne.symm apart.2.2.1⟩
  apply leads
  induction n generalizing s u with
  | zero =>
    have stop : t.holds (s.get b + 8) (s.get c) = false := last
    rw [stop, if_neg Bool.false_ne_true] at pc
    exact .done ⟨pc, mem, csr, rest⟩
  | succ n ih =>
    have goes : t.holds (s.get b + 8) (s.get c) = true := more 1 (by omega) (by omega)
    have place : ∀ i, u.get b + BitVec.ofNat 64 (8 * i) = s.get b + BitVec.ofNat 64 (8 * (i + 1)) := by
      intro i
      rw [valueB]
      bv_omega
    have bound : u.get c = s.get c := rest c other.1 other.2.1 other.2.2
    have distance : u.get a - u.get b = s.get a - s.get b := by
      rw [valueA, valueB]
      bv_omega
    rw [goes, if_pos rfl] at pc
    obtain ⟨u', leads', pc', mem', csr', valueA', valueB', rest'⟩ := code.round pc
    have later := ih pc (by omega)
      (fun i low high => by rw [place, bound]; exact more (i + 1) (by omega) (by omega))
      (by rw [place, bound]; exact last) (by rw [distance]; omega)
      u' leads' pc' mem' csr' valueA' valueB' rest'
    apply leads'
    apply later.mono
    rintro w ⟨pc, stored, kept, same⟩
    refine ⟨pc, ?_, kept.trans csr, fun x xr xa xb => (same x xr xa xb).trans (rest x xr xa xb)⟩
    have total : 8 * (n + 1 + 1) = 8 + 8 * (n + 1) := by omega
    rw [stored, mem, valueA, valueB, total]
    exact copied_more (by omega) (by omega) (by omega)

end Loops

section Bounds

variable {p : List Instr} {k : Nat} {t : Test} {a b c r : Reg} {s : State} {v w src : Word}

/-- Addresses below the middle are in the same order with the sign as without. -/
theorem holds_below (less : t = .lt ∨ t = .ltu) (low : v.toNat < 2 ^ 63)
    (low' : w.toNat < 2 ^ 63) : t.holds v w = decide (v.toNat < w.toNat) := by
  rcases less with rfl | rfl
  · have positive : ∀ x : Word, x.toNat < 2 ^ 63 → x.toInt = x.toNat := by
      intro x small
      exact BitVec.toInt_eq_toNat_of_lt (by omega)
    rw [Test.holds, BitVec.slt, positive v low, positive w low']
    exact decide_eq_decide.mpr Int.ofNat_lt
  · rfl

theorem holds_round (less : t = .lt ∨ t = .ltu) (small : w.toNat + 8 ≤ 2 ^ 63) {i : Nat}
    (before : v.toNat + 8 * i < w.toNat + 8) :
    t.holds (v + BitVec.ofNat 64 (8 * i)) w = decide (v.toNat + 8 * i < w.toNat) := by
  have place : (v + BitVec.ofNat 64 (8 * i)).toNat = v.toNat + 8 * i := by
    rw [BitVec.toNat_add, BitVec.toNat_ofNat]
    omega
  rw [holds_below less (by omega) (by omega), place]

/-- From one address up to another, and on to a multiple of 8. -/
theorem ClearLoop.between (code : ClearLoop p k t a b) (less : t = .lt ∨ t = .ltu) (start : s.pc = k)
    (lower : s.get a = v) (upper : s.get b = w) (some' : v.toNat < w.toNat)
    (small : w.toNat + 8 ≤ 2 ^ 63) :
    Run p (fun u => u.pc = k + 3 ∧ u.mem = fill s.mem v (roundUp (w.toNat - v.toNat) 8) 0 ∧
      u.csr = s.csr ∧ ∀ r, r ≠ a → u.get r = s.get r) s := by
  subst lower upper
  obtain ⟨n, size⟩ : ∃ n, roundUp ((s.get b).toNat - (s.get a).toNat) 8 = 8 * (n + 1) := by
    refine ⟨((s.get b).toNat - (s.get a).toNat + 8 - 1) / 8 - 1, ?_⟩
    rw [roundUp]
    omega
  have bounds : (s.get b).toNat ≤ (s.get a).toNat + 8 * (n + 1) ∧
      (s.get a).toNat + 8 * (n + 1) < (s.get b).toNat + 8 := by
    rw [← size, roundUp]
    omega
  rw [size]
  apply code.run start (by omega)
  · intro i low high
    rw [holds_round less small (by omega)]
    exact decide_eq_true (by omega)
  · rw [holds_round less small (by omega)]
    exact decide_eq_false (by omega)

theorem CopyLoop.between (code : CopyLoop p k t r a b c) (less : t = .lt ∨ t = .ltu) (start : s.pc = k)
    (source : s.get a = src) (lower : s.get b = v) (upper : s.get c = w) (some' : v.toNat < w.toNat)
    (small : w.toNat + 8 ≤ 2 ^ 63)
    (ahead : (src - v).toNat + roundUp (w.toNat - v.toNat) 8 ≤ 2 ^ 64) :
    Run p (fun u => u.pc = k + 5 ∧ u.mem = copied s.mem v src (roundUp (w.toNat - v.toNat) 8) ∧
      u.csr = s.csr ∧ ∀ x, x ≠ r → x ≠ a → x ≠ b → u.get x = s.get x) s := by
  subst source lower upper
  obtain ⟨n, size⟩ : ∃ n, roundUp ((s.get c).toNat - (s.get b).toNat) 8 = 8 * (n + 1) := by
    refine ⟨((s.get c).toNat - (s.get b).toNat + 8 - 1) / 8 - 1, ?_⟩
    rw [roundUp]
    omega
  have bounds : (s.get c).toNat ≤ (s.get b).toNat + 8 * (n + 1) ∧
      (s.get b).toNat + 8 * (n + 1) < (s.get c).toNat + 8 := by
    rw [← size, roundUp]
    omega
  rw [size] at ahead ⊢
  apply code.run start (by omega) _ _ ahead
  · intro i low high
    rw [holds_round less small (by omega)]
    exact decide_eq_true (by omega)
  · rw [holds_round less small (by omega)]
    exact decide_eq_false (by omega)

/-- A guarded loop does nothing where there is nothing between the addresses. -/
theorem ClearLoop.guarded (code : ClearLoop p (k + 1) .ltu a b)
    (guard : p[k]? = some (.branch .geu a b (k + 4))) (start : s.pc = k) (lower : s.get a = v)
    (upper : s.get b = w) (small : w.toNat + 8 ≤ 2 ^ 63) :
    Run p (fun u => u.pc = k + 4 ∧ u.mem = fill s.mem v (roundUp (w.toNat - v.toNat) 8) 0 ∧
      u.csr = s.csr ∧ ∀ r, r ≠ a → u.get r = s.get r) s := by
  subst start lower upper
  apply Run.next guard
  rcases Nat.lt_or_ge (s.get a).toNat (s.get b).toNat with below | above
  · have taken : Test.geu.holds (s.get a) (s.get b) = false := by
      simp [Test.holds, BitVec.ult, below]
    rw [exec, taken, if_neg Bool.false_ne_true]
    exact code.between (s := s.goto (s.pc + 1)) (.inr rfl) rfl rfl rfl below small
  · have taken : Test.geu.holds (s.get a) (s.get b) = true := by
      simp [Test.holds, BitVec.ult, Nat.not_lt.mpr above]
    rw [exec, taken, if_pos rfl, Nat.sub_eq_zero_of_le above]
    exact .done ⟨rfl, rfl, rfl, fun _ _ => rfl⟩

theorem CopyLoop.guarded (code : CopyLoop p (k + 1) .ltu r a b c)
    (guard : p[k]? = some (.branch .geu b c (k + 6))) (start : s.pc = k) (source : s.get a = src)
    (lower : s.get b = v) (upper : s.get c = w) (small : w.toNat + 8 ≤ 2 ^ 63)
    (ahead : (src - v).toNat + roundUp (w.toNat - v.toNat) 8 ≤ 2 ^ 64) :
    Run p (fun u => u.pc = k + 6 ∧ u.mem = copied s.mem v src (roundUp (w.toNat - v.toNat) 8) ∧
      u.csr = s.csr ∧ ∀ x, x ≠ r → x ≠ a → x ≠ b → u.get x = s.get x) s := by
  subst start source lower upper
  apply Run.next guard
  rcases Nat.lt_or_ge (s.get b).toNat (s.get c).toNat with below | above
  · have taken : Test.geu.holds (s.get b) (s.get c) = false := by
      simp [Test.holds, BitVec.ult, below]
    rw [exec, taken, if_neg Bool.false_ne_true]
    exact code.between (s := s.goto (s.pc + 1)) (.inr rfl) rfl rfl rfl rfl below small ahead
  · have taken : Test.geu.holds (s.get b) (s.get c) = true := by
      simp [Test.holds, BitVec.ult, Nat.not_lt.mpr above]
    rw [exec, taken, if_pos rfl, Nat.sub_eq_zero_of_le above]
    exact .done ⟨rfl, rfl, rfl, fun _ _ _ _ => rfl⟩

end Bounds

end Riscv
