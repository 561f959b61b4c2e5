import MultiZone.Startup.Entry

/-! The start of a zone: crt0.S up to the constructors. The data need not end at a multiple of 8. -/
namespace MultiZone.Startup
open Riscv Memory

structure ZoneSymbols where
  globalPointer : Word
  sp : Word
  dataLma : Word
  data : Word
  edata : Word
  bssStart : Word
  bssEnd : Word

def crt0 (y : ZoneSymbols) : List Instr :=
  [.li .gp y.globalPointer, .li .sp y.sp] ++
  /- 2 -/ loadSection 2 y.dataLma y.data y.edata ++
  /- 11 -/ clearSection 11 y.bssStart y.bssEnd

/-- The addresses that the linker script of a zone aligns, and the image outside of the memory. -/
structure ZoneLayout (y : ZoneSymbols) : Prop where
  data : y.data.toNat ≤ y.edata.toNat
  dataBelow : y.edata.toNat ≤ y.bssStart.toNat
  bss : y.bssStart.toNat ≤ y.bssEnd.toNat
  small : y.bssEnd.toNat + 8 ≤ 2 ^ 63
  dataAligned : 8 ∣ y.data.toNat
  bssAligned : 8 ∣ y.bssStart.toNat
  bssAligned' : 8 ∣ y.bssEnd.toNat
  image : y.dataLma.toNat + roundUp (y.edata.toNat - y.data.toNat) 8 ≤ y.data.toNat ∨
    y.bssEnd.toNat ≤ y.dataLma.toNat ∧
      y.dataLma.toNat + roundUp (y.edata.toNat - y.data.toNat) 8 ≤ 2 ^ 64

/-- Where the last round of the data ends. -/
def ZoneSymbols.copyEnd (y : ZoneSymbols) : Nat :=
  y.data.toNat + roundUp (y.edata.toNat - y.data.toNat) 8

/-- What C expects of the memory when the constructors begin, and that the rest is as it was. The last
round of the data may go beyond it, but not beyond the start of the zeros. -/
structure ZonePrepared (y : ZoneSymbols) (mem mem' : Memory) : Prop where
  within : y.edata.toNat ≤ y.copyEnd ∧ y.copyEnd < y.edata.toNat + 8 ∧ y.copyEnd ≤ y.bssStart.toNat
  data : ∀ x, y.data.toNat ≤ x.toNat → x.toNat < y.copyEnd → mem' x = mem (y.dataLma + (x - y.data))
  zero : ∀ x, Between y.bssStart y.bssEnd x → mem' x = 0
  other : ∀ x, ¬ (y.data.toNat ≤ x.toNat ∧ x.toNat < y.copyEnd) → ¬ Between y.bssStart y.bssEnd x →
    mem' x = mem x

variable {y : ZoneSymbols} {s : State}

theorem ZoneLayout.within (l : ZoneLayout y) :
    y.edata.toNat ≤ y.copyEnd ∧ y.copyEnd < y.edata.toNat + 8 ∧ y.copyEnd ≤ y.bssStart.toNat := by
  obtain ⟨data, dataBelow, -, -, ⟨m, low⟩, ⟨n, high⟩, -, -⟩ := l
  rw [ZoneSymbols.copyEnd, roundUp]
  omega

theorem ZoneLayout.ahead (l : ZoneLayout y) :
    (y.dataLma - y.data).toNat + roundUp (y.edata.toNat - y.data.toNat) 8 ≤ 2 ^ 64 := by
  have within := l.within
  unfold ZoneSymbols.copyEnd at within
  obtain ⟨data, dataBelow, bss, small, -, -, -, image⟩ := l
  have h₁ := y.dataLma.isLt
  have h₂ := y.data.isLt
  rw [BitVec.toNat_sub]
  omega

theorem ZoneLayout.prepared (l : ZoneLayout y) (mem : Memory) :
    ZonePrepared y mem (fill (copied mem y.data y.dataLma (roundUp (y.edata.toNat - y.data.toNat) 8))
      y.bssStart (y.bssEnd.toNat - y.bssStart.toNat) 0) := by
  have within := l.within
  obtain ⟨data, dataBelow, bss, small, -⟩ := l
  have inRound : ∀ x : Word, (x - y.data).toNat < roundUp (y.edata.toNat - y.data.toNat) 8 ↔
      y.data.toNat ≤ x.toNat ∧ x.toNat < y.copyEnd := by
    intro x
    have h₁ := x.isLt
    have h₂ := y.data.isLt
    unfold ZoneSymbols.copyEnd at within ⊢
    rw [BitVec.toNat_sub]
    omega
  refine ⟨within, ?_, ?_, ?_⟩
  · intro x low high
    have outside : ¬ Between y.bssStart y.bssEnd x := by
      rintro ⟨beyond, -⟩
      omega
    rw [fill_between bss, if_neg outside, copied, if_pos ((inRound x).mpr ⟨low, high⟩)]
  · intro x inside
    rw [fill_between bss, if_pos inside]
  · intro x uncopied unset
    rw [fill_between bss, if_neg unset, copied, if_neg (mt (inRound x).mp uncopied)]

theorem crt0_prepares (l : ZoneLayout y) (start : s.pc = 0) :
    Run (crt0 y) (fun u => u.pc = 17 ∧ u.get .sp = y.sp ∧ ZonePrepared y s.mem u.mem) s := by
  have within := l.within
  unfold ZoneSymbols.copyEnd at within
  have high := l.bss
  have small := l.small
  have bssSize : roundUp (y.bssEnd.toNat - y.bssStart.toNat) 8 =
      y.bssEnd.toNat - y.bssStart.toNat :=
    roundUp_of_dvd (Nat.dvd_sub l.bssAligned' l.bssAligned)
  have data : At (crt0 y) 2 (loadSection 2 y.dataLma y.data y.edata) := rfl
  have bss : At (crt0 y) 11 (clearSection 11 y.bssStart y.bssEnd) := rfl
  rcases s with ⟨pc, regs, mem, csr⟩
  cases start
  apply Run.next (i := .li .gp y.globalPointer) rfl
  apply Run.next (i := .li .sp y.sp) rfl
  apply (loadSection_run data rfl (by omega) l.ahead).bind
  rintro s₁ ⟨at₁, mem₁, sp₁⟩
  apply (clearSection_run bss at₁ small).mono
  rintro s₂ ⟨at₂, mem₂, sp₂⟩
  refine ⟨at₂, sp₂.trans sp₁, ?_⟩
  rw [mem₂, mem₁, bssSize]
  exact l.prepared mem

/-- The memory of zone 2 with 13 bytes of data. -/
def zone2 : ZoneSymbols where
  globalPointer := 0x08074800
  sp := 0x08078000
  dataLma := 0x08042000
  data := 0x08074000
  edata := 0x0807400d
  bssStart := 0x08074010
  bssEnd := 0x08074040

theorem crt0_prepares_zone2 :
    Run (crt0 zone2)
      (fun u => u.pc = 17 ∧ u.get .sp = 0x08078000 ∧ ZonePrepared zone2 (fun _ => 0xff) u.mem)
      ⟨0, fun _ => 0, fun _ => 0xff, fun _ => 0⟩ :=
  crt0_prepares (s := ⟨0, fun _ => 0, fun _ => 0xff, fun _ => 0⟩) (by constructor <;> decide) rfl

end MultiZone.Startup
