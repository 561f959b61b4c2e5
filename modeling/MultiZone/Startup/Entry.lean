import MultiZone.Riscv.Blocks

/-! What the harts 1 to 4 do between reset and main: mss_entry.S from the place on where it asks for
the hart, in the memory that the linker script lays out. -/
namespace MultiZone.Startup
open Riscv Memory

/-- The symbols of the linker script; each hart has a stack. -/
structure Symbols where
  stackBottom : Nat → Word
  stackTop : Nat → Word
  heapStart : Word
  heapEnd : Word
  dataLoad : Word
  dataStart : Word
  dataEnd : Word
  sdataLoad : Word
  sdataStart : Word
  sdataEnd : Word
  bssStart : Word
  bssEnd : Word
  sbssStart : Word
  sbssEnd : Word

def mhartid : Nat := 0xf14

/-- A section that is copied, without a place where it begins. -/
def loadSection (k : Nat) (load start stop : Word) : List Instr :=
  [.li .a0 load, .li .a1 start, .li .a2 stop, .branch .geu .a1 .a2 (k + 9),
    .load 8 .t0 0 .a0, .store 8 .t0 0 .a1, .addi .a0 .a0 8, .addi .a1 .a1 8,
    .branch .ltu .a1 .a2 (k + 4)]

def clearSection (k : Nat) (start stop : Word) : List Instr :=
  [.li .a0 start, .li .a1 stop, .branch .geu .a0 .a1 (k + 6),
    .store 8 .zero 0 .a0, .addi .a0 .a0 8, .branch .ltu .a0 .a1 (k + 3)]

/-- Up to where the interrupts are disabled again and main is called. -/
def entry (y : Symbols) : List Instr := [
  /- 0 -/ .csrr .a0 mhartid,
  .li .a1 0, .branch .eq .a0 .a1 11,
  .li .a1 1, .branch .eq .a0 .a1 14,
  .li .a1 2, .branch .eq .a0 .a1 17,
  .li .a1 3, .branch .eq .a0 .a1 20,
  .li .a1 4, .branch .eq .a0 .a1 23,
  /- .hart0: 11 -/ .li .a4 (y.stackBottom 0), .li .sp (y.stackTop 0), .jump 25,
  /- .hart1: 14 -/ .li .a4 (y.stackBottom 1), .li .sp (y.stackTop 1), .jump 25,
  /- .hart2: 17 -/ .li .a4 (y.stackBottom 2), .li .sp (y.stackTop 2), .jump 25,
  /- .hart3: 20 -/ .li .a4 (y.stackBottom 3), .li .sp (y.stackTop 3), .jump 25,
  /- .hart4: 23 -/ .li .a4 (y.stackBottom 4), .li .sp (y.stackTop 4),
  /- .continue: 25 -/ .addi .a5 .sp 0,
  /- .init_stack: 26 -/ .store 8 .zero 0 .a4, .addi .a4 .a4 8, .branch .lt .a4 .a5 26,
  /- 29 -/ .li .a4 y.heapStart, .li .a5 y.heapEnd,
  /- .init_heap: 31 -/ .store 8 .zero 0 .a4, .addi .a4 .a4 8, .branch .lt .a4 .a5 31] ++
  /- 34 -/ loadSection 34 y.dataLoad y.dataStart y.dataEnd ++
  /- 43 -/ loadSection 43 y.sdataLoad y.sdataStart y.sdataEnd ++
  /- 52 -/ clearSection 52 y.bssStart y.bssEnd ++
  /- 58 -/ clearSection 58 y.sbssStart y.sbssEnd

section Sections

variable {p : List Instr} {k : Nat} {s : State} {load start stop : Word}

theorem initStack_run (code : At p k [.addi .a5 .sp 0, .store 8 .zero 0 .a4, .addi .a4 .a4 8,
      .branch .lt .a4 .a5 (k + 1)])
    (pc : s.pc = k) (lower : s.get .a4 = start) (upper : s.get .sp = stop)
    (some' : start.toNat < stop.toNat) (small : stop.toNat + 8 ≤ 2 ^ 63) :
    Run p (fun u => u.pc = k + 4 ∧
      u.mem = fill s.mem start (roundUp (stop.toNat - start.toNat) 8) 0 ∧
      u.get .sp = stop) s := by
  subst pc
  have loop : ClearLoop p (s.pc + 1) .lt .a4 .a5 :=
    ⟨code.fetch (i := 1) rfl, code.fetch (i := 2) rfl, code.fetch (i := 3) rfl, by decide, by decide⟩
  have upper' : s.get .sp + 0 = stop := (BitVec.add_zero _).trans upper
  apply Run.next (code.fetch (i := 0) rfl)
  refine (loop.between (v := start) (w := stop) (.inl rfl) ?_ ?_ ?_ some' small).mono ?_
  · rfl
  · exact lower
  · exact upper'
  · rintro u ⟨pc, mem, -, rest⟩
    exact ⟨pc, mem, (rest .sp (by decide)).trans upper⟩

theorem initHeap_run (code : At p k [.li .a4 start, .li .a5 stop, .store 8 .zero 0 .a4,
      .addi .a4 .a4 8, .branch .lt .a4 .a5 (k + 2)])
    (pc : s.pc = k) (some' : start.toNat < stop.toNat) (small : stop.toNat + 8 ≤ 2 ^ 63) :
    Run p (fun u => u.pc = k + 5 ∧
      u.mem = fill s.mem start (roundUp (stop.toNat - start.toNat) 8) 0 ∧
      u.get .sp = s.get .sp) s := by
  subst pc
  have loop : ClearLoop p (s.pc + 2) .lt .a4 .a5 :=
    ⟨code.fetch (i := 2) rfl, code.fetch (i := 3) rfl, code.fetch (i := 4) rfl, by decide, by decide⟩
  apply Run.next (code.fetch (i := 0) rfl)
  apply Run.next (code.fetch (i := 1) rfl)
  refine (loop.between (v := start) (w := stop) (.inl rfl) ?_ ?_ ?_ some' small).mono ?_
  iterate 3 rfl
  rintro u ⟨pc, mem, -, rest⟩
  exact ⟨pc, mem, rest .sp (by decide)⟩

theorem loadSection_run (code : At p k (loadSection k load start stop)) (pc : s.pc = k)
    (small : stop.toNat + 8 ≤ 2 ^ 63)
    (ahead : (load - start).toNat + roundUp (stop.toNat - start.toNat) 8 ≤ 2 ^ 64) :
    Run p (fun u => u.pc = k + 9 ∧
      u.mem = copied s.mem start load (roundUp (stop.toNat - start.toNat) 8) ∧
      u.get .sp = s.get .sp) s := by
  subst pc
  have loop : CopyLoop p (s.pc + 3 + 1) .ltu .t0 .a0 .a1 .a2 :=
    ⟨code.fetch (i := 4) rfl, code.fetch (i := 5) rfl, code.fetch (i := 6) rfl,
      code.fetch (i := 7) rfl, code.fetch (i := 8) rfl, by decide, by decide⟩
  apply Run.next (code.fetch (i := 0) rfl)
  apply Run.next (code.fetch (i := 1) rfl)
  apply Run.next (code.fetch (i := 2) rfl)
  refine (loop.guarded (v := start) (w := stop) (code.fetch (i := 3) rfl) ?_ ?_ ?_ ?_ small ahead).mono ?_
  iterate 4 rfl
  rintro u ⟨pc, mem, -, rest⟩
  exact ⟨pc, mem, rest .sp (by decide) (by decide) (by decide)⟩

theorem clearSection_run (code : At p k (clearSection k start stop)) (pc : s.pc = k)
    (small : stop.toNat + 8 ≤ 2 ^ 63) :
    Run p (fun u => u.pc = k + 6 ∧
      u.mem = fill s.mem start (roundUp (stop.toNat - start.toNat) 8) 0 ∧
      u.get .sp = s.get .sp) s := by
  subst pc
  have loop : ClearLoop p (s.pc + 2 + 1) .ltu .a0 .a1 :=
    ⟨code.fetch (i := 3) rfl, code.fetch (i := 4) rfl, code.fetch (i := 5) rfl, by decide, by decide⟩
  apply Run.next (code.fetch (i := 0) rfl)
  apply Run.next (code.fetch (i := 1) rfl)
  refine (loop.guarded (v := start) (w := stop) (code.fetch (i := 2) rfl) ?_ ?_ ?_ small).mono ?_
  iterate 3 rfl
  rintro u ⟨pc, mem, -, rest⟩
  exact ⟨pc, mem, rest .sp (by decide)⟩

end Sections

section Dispatch

variable {y : Symbols} {s : State} {h : Nat}

theorem entry_hart (y : Symbols) : ∀ i ≤ 4,
    (entry y)[2 * i + 1]? = some (.li .a1 (BitVec.ofNat 64 i)) ∧
      (entry y)[2 * i + 2]? = some (.branch .eq .a0 .a1 (3 * i + 11)) ∧
      (entry y)[3 * i + 11]? = some (.li .a4 (y.stackBottom i)) ∧
      (entry y)[3 * i + 12]? = some (.li .sp (y.stackTop i)) ∧
      (i < 4 → (entry y)[3 * i + 13]? = some (.jump 25))
  | 0, _ => ⟨rfl, rfl, rfl, rfl, fun _ => rfl⟩
  | 1, _ => ⟨rfl, rfl, rfl, rfl, fun _ => rfl⟩
  | 2, _ => ⟨rfl, rfl, rfl, rfl, fun _ => rfl⟩
  | 3, _ => ⟨rfl, rfl, rfl, rfl, fun _ => rfl⟩
  | 4, _ => ⟨rfl, rfl, rfl, rfl, fun wrong => absurd wrong (Nat.lt_irrefl 4)⟩
  | _ + 5, wrong => absurd wrong (by omega)

theorem entry_compares (known : h ≤ 4) (hart : s.csr mhartid = BitVec.ofNat 64 h)
    (start : s.pc = 0) {i : Nat} (before : i ≤ h) :
    Run (entry y) (fun u => u.pc = 2 * i + 1 ∧ u.get .a0 = BitVec.ofNat 64 h ∧ u.mem = s.mem) s := by
  induction i with
  | zero =>
    have fetch : (entry y)[s.pc]? = some (.csrr .a0 mhartid) := by
      rw [start]
      rfl
    apply Run.next fetch
    exact .done ⟨congrArg (· + 1) start, hart, rfl⟩
  | succ i ih =>
    apply (ih (Nat.le_of_succ_le before)).bind
    rintro ⟨pc, regs, mem, csr⟩ ⟨at', value, same⟩
    cases at'
    obtain ⟨li, beq, -⟩ := entry_hart y i (by omega)
    have other : (BitVec.ofNat 64 h == BitVec.ofNat 64 i) = false := by
      apply beq_false_of_ne
      intro same
      have equal := congrArg BitVec.toNat same
      simp only [BitVec.toNat_ofNat] at equal
      omega
    apply Run.next li
    apply Run.passed beq
    · rw [← value] at other
      exact other
    · exact .done ⟨rfl, value, same⟩

theorem entry_stack (known : h ≤ 4) (hart : s.csr mhartid = BitVec.ofNat 64 h) (start : s.pc = 0) :
    Run (entry y) (fun u => u.pc = 25 ∧ u.get .a4 = y.stackBottom h ∧ u.get .sp = y.stackTop h ∧
      u.mem = s.mem) s := by
  apply (entry_compares known hart start (Nat.le_refl h)).bind
  rintro ⟨pc, regs, mem, csr⟩ ⟨at', value, same⟩
  cases at'
  obtain ⟨li, beq, bottom, top, jump⟩ := entry_hart y h known
  apply Run.next li
  apply Run.taken beq
  · exact beq_iff_eq.mpr value
  · apply Run.next bottom
    apply Run.next top
    rcases Nat.lt_or_ge h 4 with below | last
    · apply Run.next (jump below)
      exact .done ⟨rfl, rfl, rfl, same⟩
    · have four : h = 4 := by omega
      subst four
      exact .done ⟨rfl, rfl, rfl, same⟩

end Dispatch

section Memory

/-- How the linker script lays out the memory of a hart: section after section, each from a multiple
of 16 up to another, and the images of the data outside. -/
structure Layout (y : Symbols) (h : Nat) : Prop where
  sdata : y.sdataStart.toNat ≤ y.sdataEnd.toNat
  sdataBelow : y.sdataEnd.toNat ≤ y.dataStart.toNat
  data : y.dataStart.toNat ≤ y.dataEnd.toNat
  dataBelow : y.dataEnd.toNat ≤ y.sbssStart.toNat
  sbss : y.sbssStart.toNat ≤ y.sbssEnd.toNat
  sbssBelow : y.sbssEnd.toNat ≤ y.bssStart.toNat
  bss : y.bssStart.toNat ≤ y.bssEnd.toNat
  bssBelow : y.bssEnd.toNat ≤ y.heapStart.toNat
  heap : y.heapStart.toNat < y.heapEnd.toNat
  heapBelow : y.heapEnd.toNat ≤ (y.stackBottom h).toNat
  stack : (y.stackBottom h).toNat < (y.stackTop h).toNat
  small : (y.stackTop h).toNat + 8 ≤ 2 ^ 63
  aligned : ∀ a ∈ [y.sdataStart, y.sdataEnd, y.dataStart, y.dataEnd, y.sbssStart, y.sbssEnd,
    y.bssStart, y.bssEnd, y.heapStart, y.heapEnd, y.stackBottom h, y.stackTop h], 16 ∣ a.toNat
  dataImage : y.dataLoad.toNat + (y.dataEnd.toNat - y.dataStart.toNat) ≤ y.sdataStart.toNat ∨
    (y.stackTop h).toNat ≤ y.dataLoad.toNat ∧
      y.dataLoad.toNat + (y.dataEnd.toNat - y.dataStart.toNat) ≤ 2 ^ 64
  sdataImage : y.sdataLoad.toNat + (y.sdataEnd.toNat - y.sdataStart.toNat) ≤ y.sdataStart.toNat ∨
    (y.stackTop h).toNat ≤ y.sdataLoad.toNat ∧
      y.sdataLoad.toNat + (y.sdataEnd.toNat - y.sdataStart.toNat) ≤ 2 ^ 64

/-- The memory that the loops leave, one after another. -/
def prepare (y : Symbols) (h : Nat) (mem : Memory) : Memory :=
  let size (a b : Word) := b.toNat - a.toNat
  let mem := fill mem (y.stackBottom h) (size (y.stackBottom h) (y.stackTop h)) 0
  let mem := fill mem y.heapStart (size y.heapStart y.heapEnd) 0
  let mem := copied mem y.dataStart y.dataLoad (size y.dataStart y.dataEnd)
  let mem := copied mem y.sdataStart y.sdataLoad (size y.sdataStart y.sdataEnd)
  let mem := fill mem y.bssStart (size y.bssStart y.bssEnd) 0
  fill mem y.sbssStart (size y.sbssStart y.sbssEnd) 0

/-- What C expects of the memory when main begins, and that the rest is as it was. -/
structure Prepared (y : Symbols) (h : Nat) (mem mem' : Memory) : Prop where
  data : ∀ x, Between y.dataStart y.dataEnd x → mem' x = mem (y.dataLoad + (x - y.dataStart))
  sdata : ∀ x, Between y.sdataStart y.sdataEnd x → mem' x = mem (y.sdataLoad + (x - y.sdataStart))
  zero : ∀ x, Between y.bssStart y.bssEnd x ∨ Between y.sbssStart y.sbssEnd x ∨
    Between y.heapStart y.heapEnd x ∨ Between (y.stackBottom h) (y.stackTop h) x → mem' x = 0
  other : ∀ x, ¬ Between y.dataStart y.dataEnd x → ¬ Between y.sdataStart y.sdataEnd x →
    ¬ Between y.bssStart y.bssEnd x → ¬ Between y.sbssStart y.sbssEnd x →
    ¬ Between y.heapStart y.heapEnd x → ¬ Between (y.stackBottom h) (y.stackTop h) x →
    mem' x = mem x

variable {y : Symbols} {h : Nat} {load start stop x : Word}

theorem Layout.below (l : Layout y h) : y.sdataEnd.toNat + 8 ≤ 2 ^ 63 ∧
    y.dataEnd.toNat + 8 ≤ 2 ^ 63 ∧ y.sbssEnd.toNat + 8 ≤ 2 ^ 63 ∧ y.bssEnd.toNat + 8 ≤ 2 ^ 63 ∧
    y.heapEnd.toNat + 8 ≤ 2 ^ 63 := by
  obtain ⟨sdata, sdataBelow, data, dataBelow, sbss, sbssBelow, bss, bssBelow, heap, heapBelow, stack,
    small, -⟩ := l
  omega

theorem roundUp_aligned (from' : 16 ∣ start.toNat) (to' : 16 ∣ stop.toNat) :
    roundUp (stop.toNat - start.toNat) 8 = stop.toNat - start.toNat :=
  roundUp_of_dvd (Nat.dvd_trans (by decide) (Nat.dvd_sub to' from'))

theorem image_ahead (order : start.toNat ≤ stop.toNat)
    (apart : load.toNat + (stop.toNat - start.toNat) ≤ start.toNat ∨ stop.toNat ≤ load.toNat ∧
      load.toNat + (stop.toNat - start.toNat) ≤ 2 ^ 64) :
    (load - start).toNat + (stop.toNat - start.toNat) ≤ 2 ^ 64 := by
  have h₁ := load.isLt
  have h₂ := start.isLt
  rw [BitVec.toNat_sub]
  omega

theorem Layout.ahead (l : Layout y h) :
    (y.dataLoad - y.dataStart).toNat + (y.dataEnd.toNat - y.dataStart.toNat) ≤ 2 ^ 64 ∧
      (y.sdataLoad - y.sdataStart).toNat + (y.sdataEnd.toNat - y.sdataStart.toNat) ≤ 2 ^ 64 := by
  obtain ⟨sdata, sdataBelow, data, dataBelow, sbss, sbssBelow, bss, bssBelow, heap, heapBelow, stack,
    -, -, dataImage, sdataImage⟩ := l
  exact ⟨image_ahead data (by omega), image_ahead sdata (by omega)⟩

theorem image_outside {low high a b : Word} (inside : Between start stop x)
    (apart : load.toNat + (stop.toNat - start.toNat) ≤ low.toNat ∨ high.toNat ≤ load.toNat ∧
      load.toNat + (stop.toNat - start.toNat) ≤ 2 ^ 64)
    (lower : low.toNat ≤ a.toNat) (upper : b.toNat ≤ high.toNat) :
    ¬ Between a b (load + (x - start)) := by
  obtain ⟨from', to'⟩ := inside
  have place : (load + (x - start)).toNat = load.toNat + (x.toNat - start.toNat) := by
    have h₁ := low.isLt
    have h₂ := x.isLt
    rw [BitVec.toNat_add, BitVec.toNat_sub]
    omega
  rintro ⟨one, two⟩
  rw [place] at one two
  omega

end Memory

section Whole

variable {y : Symbols} {s : State} {h : Nat}

theorem prepare_apply (l : Layout y h) (mem : Memory) (x : Word) : prepare y h mem x =
    if Between y.sbssStart y.sbssEnd x then 0 else if Between y.bssStart y.bssEnd x then 0 else
    if Between y.sdataStart y.sdataEnd x then mem (y.sdataLoad + (x - y.sdataStart)) else
    if Between y.dataStart y.dataEnd x then mem (y.dataLoad + (x - y.dataStart)) else
    if Between y.heapStart y.heapEnd x then 0 else
    if Between (y.stackBottom h) (y.stackTop h) x then 0 else mem x := by
  obtain ⟨sdata, sdataBelow, data, dataBelow, sbss, sbssBelow, bss, bssBelow, heap, heapBelow, stack,
    small, -, dataImage, sdataImage⟩ := l
  have heap' := Nat.le_of_lt heap
  have stack' := Nat.le_of_lt stack
  unfold prepare
  dsimp only
  rw [fill_between sbss, fill_between bss, copied_between sdata]
  apply if_congr Iff.rfl rfl
  apply if_congr Iff.rfl rfl
  rcases Decidable.em (Between y.sdataStart y.sdataEnd x) with inside | outside
  · rw [if_pos inside, if_pos inside, copied_between data,
      if_neg (image_outside inside sdataImage (by omega) (by omega)), fill_between heap',
      if_neg (image_outside inside sdataImage (by omega) (by omega)), fill_between stack',
      if_neg (image_outside inside sdataImage (by omega) (by omega))]
  · rw [if_neg outside, if_neg outside, copied_between data]
    rcases Decidable.em (Between y.dataStart y.dataEnd x) with inside | outside
    · rw [if_pos inside, if_pos inside, fill_between heap',
        if_neg (image_outside inside dataImage (by omega) (by omega)), fill_between stack',
        if_neg (image_outside inside dataImage (by omega) (by omega))]
    · rw [if_neg outside, if_neg outside, fill_between heap', fill_between stack']

theorem prepare_prepared (l : Layout y h) (mem : Memory) : Prepared y h mem (prepare y h mem) := by
  have point := prepare_apply l mem
  obtain ⟨sdata, sdataBelow, data, dataBelow, sbss, sbssBelow, bss, bssBelow, heap, heapBelow, stack,
    small, -⟩ := l
  constructor
  · intro x inside
    have place : y.dataStart.toNat ≤ x.toNat ∧ x.toNat < y.dataEnd.toNat := inside
    rw [point, if_neg (by unfold Between; omega), if_neg (by unfold Between; omega),
      if_neg (by unfold Between; omega), if_pos inside]
  · intro x inside
    have place : y.sdataStart.toNat ≤ x.toNat ∧ x.toNat < y.sdataEnd.toNat := inside
    rw [point, if_neg (by unfold Between; omega), if_neg (by unfold Between; omega), if_pos inside]
  · intro x inside
    unfold Between at inside
    have noSdata : ¬ Between y.sdataStart y.sdataEnd x := by
      unfold Between
      omega
    have noData : ¬ Between y.dataStart y.dataEnd x := by
      unfold Between
      omega
    rw [point, if_neg noSdata, if_neg noData]
    apply ite_eq_left_iff.mpr
    intro sbss
    apply ite_eq_left_iff.mpr
    intro bss
    apply ite_eq_left_iff.mpr
    intro heap
    exact if_pos (((inside.resolve_left bss).resolve_left sbss).resolve_left heap)
  · intro x data sdata bss sbss heap stack
    rw [point, if_neg sbss, if_neg bss, if_neg sdata, if_neg data, if_neg heap, if_neg stack]

theorem entry_runs (known : h ≤ 4) (hart : s.csr mhartid = BitVec.ofNat 64 h) (start : s.pc = 0)
    (l : Layout y h) :
    Run (entry y)
      (fun u => u.pc = 64 ∧ u.get .sp = y.stackTop h ∧ u.mem = prepare y h s.mem) s := by
  obtain ⟨sdataSmall, dataSmall, sbssSmall, bssSmall, heapSmall⟩ := l.below
  have whole := l.aligned
  simp only [List.mem_cons, List.not_mem_nil, or_false, forall_eq_or_imp, forall_eq] at whole
  obtain ⟨sdata₁, sdata₂, data₁, data₂, sbss₁, sbss₂, bss₁, bss₂, heap₁, heap₂, stack₁, stack₂⟩ := whole
  obtain ⟨dataAhead, sdataAhead⟩ := l.ahead
  rw [← roundUp_aligned data₁ data₂] at dataAhead
  rw [← roundUp_aligned sdata₁ sdata₂] at sdataAhead
  apply (entry_stack known hart start).bind
  rintro s₁ ⟨at₁, bottom, top, mem₁⟩
  have init : At (entry y) 25 [.addi .a5 .sp 0, .store 8 .zero 0 .a4, .addi .a4 .a4 8,
    .branch .lt .a4 .a5 (25 + 1)] := rfl
  apply (initStack_run init at₁ bottom top l.stack l.small).bind
  rintro s₂ ⟨at₂, mem₂, sp₂⟩
  have heap : At (entry y) 29 [.li .a4 y.heapStart, .li .a5 y.heapEnd, .store 8 .zero 0 .a4,
    .addi .a4 .a4 8, .branch .lt .a4 .a5 (29 + 2)] := rfl
  apply (initHeap_run heap at₂ l.heap heapSmall).bind
  rintro s₃ ⟨at₃, mem₃, sp₃⟩
  have data : At (entry y) 34 (loadSection 34 y.dataLoad y.dataStart y.dataEnd) := rfl
  apply (loadSection_run data at₃ dataSmall dataAhead).bind
  rintro s₄ ⟨at₄, mem₄, sp₄⟩
  have sdata : At (entry y) 43 (loadSection 43 y.sdataLoad y.sdataStart y.sdataEnd) := rfl
  apply (loadSection_run sdata at₄ sdataSmall sdataAhead).bind
  rintro s₅ ⟨at₅, mem₅, sp₅⟩
  have bss : At (entry y) 52 (clearSection 52 y.bssStart y.bssEnd) := rfl
  apply (clearSection_run bss at₅ bssSmall).bind
  rintro s₆ ⟨at₆, mem₆, sp₆⟩
  have sbss : At (entry y) 58 (clearSection 58 y.sbssStart y.sbssEnd) := rfl
  apply (clearSection_run sbss at₆ sbssSmall).mono
  rintro s₇ ⟨at₇, mem₇, sp₇⟩
  refine ⟨at₇, ?_, ?_⟩
  · rw [sp₇, sp₆, sp₅, sp₄, sp₃, sp₂]
  · rw [mem₇, mem₆, mem₅, mem₄, mem₃, mem₂, mem₁, roundUp_aligned stack₁ stack₂,
      roundUp_aligned heap₁ heap₂, roundUp_aligned data₁ data₂, roundUp_aligned sdata₁ sdata₂,
      roundUp_aligned bss₁ bss₂, roundUp_aligned sbss₁ sbss₂]
    rfl

theorem entry_prepares (known : h ≤ 4) (hart : s.csr mhartid = BitVec.ofNat 64 h) (start : s.pc = 0)
    (l : Layout y h) :
    Run (entry y)
      (fun u => u.pc = 64 ∧ u.get .sp = y.stackTop h ∧ Prepared y h s.mem u.mem) s := by
  apply (entry_runs known hart start l).mono
  rintro u ⟨pc, sp, mem⟩
  exact ⟨pc, sp, mem ▸ prepare_prepared l s.mem⟩

/-- The memory of hart 1 with a program of 16 KiB. -/
def hart1 : Symbols where
  stackBottom := fun h => if h ≤ 1 then 0x90001400 else 0x90002400
  stackTop := fun h => if h = 0 then 0x90001400 else 0x90002400
  heapStart := 0x90000060
  heapEnd := 0x90001060
  dataLoad := 0x80004010
  dataStart := 0x90000010
  dataEnd := 0x90000030
  sdataLoad := 0x80004000
  sdataStart := 0x90000000
  sdataEnd := 0x90000010
  bssStart := 0x90000040
  bssEnd := 0x90000060
  sbssStart := 0x90000030
  sbssEnd := 0x90000040

theorem hart1_layout : Layout hart1 1 := by
  constructor
  case aligned =>
    simp only [List.mem_cons, List.not_mem_nil, or_false, forall_eq_or_imp, forall_eq]
    decide
  all_goals decide

theorem entry_prepares_hart1 :
    Run (entry hart1) (fun u => u.pc = 64 ∧ u.get .sp = 0x90002400 ∧
      Prepared hart1 1 (fun _ => 0xff) u.mem) ⟨0, fun _ => 0, fun _ => 0xff, fun _ => 1⟩ :=
  entry_prepares (s := ⟨0, fun _ => 0, fun _ => 0xff, fun _ => 1⟩) (by decide) rfl rfl hart1_layout

end Whole

end MultiZone.Startup
