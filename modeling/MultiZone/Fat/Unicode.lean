import MultiZone.Message
import Mathlib.Algebra.Group.Nat.Defs

/-! Characters as FatFs is built for them: code page 437 in the names of the callers, UTF-16 on the
card. -/
namespace MultiZone.Fat

/-- From U+0000 to U+0FFF: the blocks of characters that have an upper case, each with its first
character, its command and its size, and the table of the block if the command is 0. -/
def cvt1 : List Nat := [
  0x0061, 0x031A, 0x00E0, 0x0317, 0x00F8, 0x0307, 0x00FF, 0x0001, 0x0178, 0x0100, 0x0130, 0x0132,
  0x0106, 0x0139, 0x0110, 0x014A, 0x012E, 0x0179, 0x0106, 0x0180, 0x004D, 0x0243, 0x0181, 0x0182,
  0x0182, 0x0184, 0x0184, 0x0186, 0x0187, 0x0187, 0x0189, 0x018A, 0x018B, 0x018B, 0x018D, 0x018E,
  0x018F, 0x0190, 0x0191, 0x0191, 0x0193, 0x0194, 0x01F6, 0x0196, 0x0197, 0x0198, 0x0198, 0x023D,
  0x019B, 0x019C, 0x019D, 0x0220, 0x019F, 0x01A0, 0x01A0, 0x01A2, 0x01A2, 0x01A4, 0x01A4, 0x01A6,
  0x01A7, 0x01A7, 0x01A9, 0x01AA, 0x01AB, 0x01AC, 0x01AC, 0x01AE, 0x01AF, 0x01AF, 0x01B1, 0x01B2,
  0x01B3, 0x01B3, 0x01B5, 0x01B5, 0x01B7, 0x01B8, 0x01B8, 0x01BA, 0x01BB, 0x01BC, 0x01BC, 0x01BE,
  0x01F7, 0x01C0, 0x01C1, 0x01C2, 0x01C3, 0x01C4, 0x01C5, 0x01C4, 0x01C7, 0x01C8, 0x01C7, 0x01CA,
  0x01CB, 0x01CA, 0x01CD, 0x0110, 0x01DD, 0x0001, 0x018E, 0x01DE, 0x0112, 0x01F3, 0x0003, 0x01F1,
  0x01F4, 0x01F4, 0x01F8, 0x0128, 0x0222, 0x0112, 0x023A, 0x0009, 0x2C65, 0x023B, 0x023B, 0x023D,
  0x2C66, 0x023F, 0x0240, 0x0241, 0x0241, 0x0246, 0x010A, 0x0253, 0x0040, 0x0181, 0x0186, 0x0255,
  0x0189, 0x018A, 0x0258, 0x018F, 0x025A, 0x0190, 0x025C, 0x025D, 0x025E, 0x025F, 0x0193, 0x0261,
  0x0262, 0x0194, 0x0264, 0x0265, 0x0266, 0x0267, 0x0197, 0x0196, 0x026A, 0x2C62, 0x026C, 0x026D,
  0x026E, 0x019C, 0x0270, 0x0271, 0x019D, 0x0273, 0x0274, 0x019F, 0x0276, 0x0277, 0x0278, 0x0279,
  0x027A, 0x027B, 0x027C, 0x2C64, 0x027E, 0x027F, 0x01A6, 0x0281, 0x0282, 0x01A9, 0x0284, 0x0285,
  0x0286, 0x0287, 0x01AE, 0x0244, 0x01B1, 0x01B2, 0x0245, 0x028D, 0x028E, 0x028F, 0x0290, 0x0291,
  0x01B7, 0x037B, 0x0003, 0x03FD, 0x03FE, 0x03FF, 0x03AC, 0x0004, 0x0386, 0x0388, 0x0389, 0x038A,
  0x03B1, 0x0311, 0x03C2, 0x0002, 0x03A3, 0x03A3, 0x03C4, 0x0308, 0x03CC, 0x0003, 0x038C, 0x038E,
  0x038F, 0x03D8, 0x0118, 0x03F2, 0x000A, 0x03F9, 0x03F3, 0x03F4, 0x03F5, 0x03F6, 0x03F7, 0x03F7,
  0x03F9, 0x03FA, 0x03FA, 0x0430, 0x0320, 0x0450, 0x0710, 0x0460, 0x0122, 0x048A, 0x0136, 0x04C1,
  0x010E, 0x04CF, 0x0001, 0x04C0, 0x04D0, 0x0144, 0x0561, 0x0426, 0x0]

/-- From U+1000 to U+FFFF. -/
def cvt2 : List Nat := [
  0x1D7D, 0x0001, 0x2C63, 0x1E00, 0x0196, 0x1EA0, 0x015A, 0x1F00, 0x0608, 0x1F10, 0x0606, 0x1F20,
  0x0608, 0x1F30, 0x0608, 0x1F40, 0x0606, 0x1F51, 0x0007, 0x1F59, 0x1F52, 0x1F5B, 0x1F54, 0x1F5D,
  0x1F56, 0x1F5F, 0x1F60, 0x0608, 0x1F70, 0x000E, 0x1FBA, 0x1FBB, 0x1FC8, 0x1FC9, 0x1FCA, 0x1FCB,
  0x1FDA, 0x1FDB, 0x1FF8, 0x1FF9, 0x1FEA, 0x1FEB, 0x1FFA, 0x1FFB, 0x1F80, 0x0608, 0x1F90, 0x0608,
  0x1FA0, 0x0608, 0x1FB0, 0x0004, 0x1FB8, 0x1FB9, 0x1FB2, 0x1FBC, 0x1FCC, 0x0001, 0x1FC3, 0x1FD0,
  0x0602, 0x1FE0, 0x0602, 0x1FE5, 0x0001, 0x1FEC, 0x1FF3, 0x0001, 0x1FFC, 0x214E, 0x0001, 0x2132,
  0x2170, 0x0210, 0x2184, 0x0001, 0x2183, 0x24D0, 0x051A, 0x2C30, 0x042F, 0x2C60, 0x0102, 0x2C67,
  0x0106, 0x2C75, 0x0102, 0x2C80, 0x0164, 0x2D00, 0x0826, 0xFF41, 0x031A, 0x0]

def uc437 : List Nat := [
  0x00C7, 0x00FC, 0x00E9, 0x00E2, 0x00E4, 0x00E0, 0x00E5, 0x00E7, 0x00EA, 0x00EB, 0x00E8, 0x00EF,
  0x00EE, 0x00EC, 0x00C4, 0x00C5, 0x00C9, 0x00E6, 0x00C6, 0x00F4, 0x00F6, 0x00F2, 0x00FB, 0x00F9,
  0x00FF, 0x00D6, 0x00DC, 0x00A2, 0x00A3, 0x00A5, 0x20A7, 0x0192, 0x00E1, 0x00ED, 0x00F3, 0x00FA,
  0x00F1, 0x00D1, 0x00AA, 0x00BA, 0x00BF, 0x2310, 0x00AC, 0x00BD, 0x00BC, 0x00A1, 0x00AB, 0x00BB,
  0x2591, 0x2592, 0x2593, 0x2502, 0x2524, 0x2561, 0x2562, 0x2556, 0x2555, 0x2563, 0x2551, 0x2557,
  0x255D, 0x255C, 0x255B, 0x2510, 0x2514, 0x2534, 0x252C, 0x251C, 0x2500, 0x253C, 0x255E, 0x255F,
  0x255A, 0x2554, 0x2569, 0x2566, 0x2560, 0x2550, 0x256C, 0x2567, 0x2568, 0x2564, 0x2565, 0x2559,
  0x2558, 0x2552, 0x2553, 0x256B, 0x256A, 0x2518, 0x250C, 0x2588, 0x2584, 0x258C, 0x2590, 0x2580,
  0x03B1, 0x00DF, 0x0393, 0x03C0, 0x03A3, 0x03C3, 0x00B5, 0x03C4, 0x03A6, 0x0398, 0x03A9, 0x03B4,
  0x221E, 0x03C6, 0x03B5, 0x2229, 0x2261, 0x00B1, 0x2265, 0x2264, 0x2320, 0x2321, 0x00F7, 0x2248,
  0x00B0, 0x2219, 0x00B7, 0x221A, 0x207F, 0x00B2, 0x25A0, 0x00A0]

/-- The upper case of the upper half of the code page. -/
def exCvt : List Nat := [
  0x80, 0x9A, 0x45, 0x41, 0x8E, 0x41, 0x8F, 0x80, 0x45, 0x45, 0x45, 0x49,
  0x49, 0x49, 0x8E, 0x8F, 0x90, 0x92, 0x92, 0x4F, 0x99, 0x4F, 0x55, 0x55,
  0x59, 0x99, 0x9A, 0x9B, 0x9C, 0x9D, 0x9E, 0x9F, 0x41, 0x49, 0x4F, 0x55,
  0xA5, 0xA5, 0xA6, 0xA7, 0xA8, 0xA9, 0xAA, 0xAB, 0xAC, 0xAD, 0xAE, 0xAF,
  0xB0, 0xB1, 0xB2, 0xB3, 0xB4, 0xB5, 0xB6, 0xB7, 0xB8, 0xB9, 0xBA, 0xBB,
  0xBC, 0xBD, 0xBE, 0xBF, 0xC0, 0xC1, 0xC2, 0xC3, 0xC4, 0xC5, 0xC6, 0xC7,
  0xC8, 0xC9, 0xCA, 0xCB, 0xCC, 0xCD, 0xCE, 0xCF, 0xD0, 0xD1, 0xD2, 0xD3,
  0xD4, 0xD5, 0xD6, 0xD7, 0xD8, 0xD9, 0xDA, 0xDB, 0xDC, 0xDD, 0xDE, 0xDF,
  0xE0, 0xE1, 0xE2, 0xE3, 0xE4, 0xE5, 0xE6, 0xE7, 0xE8, 0xE9, 0xEA, 0xEB,
  0xEC, 0xED, 0xEE, 0xEF, 0xF0, 0xF1, 0xF2, 0xF3, 0xF4, 0xF5, 0xF6, 0xF7,
  0xF8, 0xF9, 0xFA, 0xFB, 0xFC, 0xFD, 0xFE, 0xFF]

def upcase (uc bc cmd : Nat) (p : List Nat) : Nat :=
  match cmd with
  | 0 => p.getD (uc - bc) 0
  | 1 => uc - ((uc - bc) &&& 1)
  | 2 => uc - 16
  | 3 => uc - 32
  | 4 => uc - 48
  | 5 => uc - 26
  | 6 => uc + 8
  | 7 => uc - 80
  | 8 => uc - 0x1C60
  | _ => uc

/-- The loop through the blocks, with a number of rounds that is enough. -/
def wtoupperLoop (uc : Nat) : Nat → List Nat → Nat
  | rounds + 1, bc :: nc :: p =>
    if bc = 0 ∨ uc < bc then uc
    else
      let cmd := nc >>> 8
      let nc := nc &&& 0xFF
      if uc < bc + nc then upcase uc bc cmd p
      else wtoupperLoop uc rounds (if cmd = 0 then p.drop nc else p)
  | _, _ => uc

def ffWtoupper (uni : Nat) : Nat :=
  if uni < 0x10000 then
    let p := if uni < 0x1000 then cvt1 else cvt2
    wtoupperLoop uni p.length p
  else uni

def ffOem2uni (oem : Nat) : Nat :=
  if oem < 0x80 then oem else if oem < 0x100 then uc437.getD (oem - 0x80) 0 else 0

def ffUni2oem (uni : Nat) : Nat :=
  if uni < 0x80 then uni
  else if uni < 0x10000 then (uc437.findIdx (· = uni) + 0x80) &&& 0xFF
  else 0

def tchar2uni (b : Byte) : Option Nat :=
  let wc := b.toNat
  if wc ≠ 0 then
    let wc := ffOem2uni wc
    if wc = 0 then none else some wc
  else some wc

section Characters

def Keeps (bc cmd nc : Nat) (p : List Nat) : Prop :=
  if cmd = 0 then nc ≤ p.length ∧ ∀ uc ∈ p.take nc, 0 < uc
  else if cmd = 8 then 0x1C60 < bc
  else 80 < bc

instance (bc cmd nc : Nat) (p : List Nat) : Decidable (Keeps bc cmd nc p) :=
  inferInstanceAs (Decidable (if cmd = 0 then _ else if cmd = 8 then _ else _))

def keepsAll : Nat → List Nat → Bool
  | rounds + 1, bc :: nc :: p =>
    let cmd := nc >>> 8
    let nc := nc &&& 0xFF
    Keeps bc cmd nc p && keepsAll rounds (if cmd = 0 then p.drop nc else p)
  | _, _ => true

theorem upcase_pos {uc bc cmd nc : Nat} {p : List Nat} (keeps : Keeps bc cmd nc p) (low : bc ≤ uc)
    (high : uc < bc + nc) : 0 < upcase uc bc cmd p := by
  unfold Keeps at keeps
  unfold upcase
  split
  · obtain ⟨length, all⟩ := keeps
    have short : uc - bc < (p.take nc).length := by
      rw [List.length_take, Nat.min_eq_left length]
      omega
    have here := all _ (List.getElem_mem short)
    rw [List.getElem_take] at here
    rw [List.getD_eq_getElem?_getD, List.getElem?_eq_getElem (by omega)]
    exact here
  · have bit : (uc - bc) &&& 1 ≤ 1 := Nat.and_le_right
    change 80 < bc at keeps
    omega
  · change 80 < bc at keeps
    omega
  · change 80 < bc at keeps
    omega
  · change 80 < bc at keeps
    omega
  · change 80 < bc at keeps
    omega
  · exact Nat.succ_pos _
  · change 80 < bc at keeps
    omega
  · change 0x1C60 < bc at keeps
    omega
  · rename_i other _ _ _ _ _ _ _ eight
    rw [if_neg other, if_neg eight] at keeps
    omega

theorem wtoupperLoop_pos {uc rounds : Nat} {p : List Nat} (positive : 0 < uc)
    (kept : keepsAll rounds p = true) : 0 < wtoupperLoop uc rounds p := by
  fun_induction wtoupperLoop uc rounds p with
  | case1 => exact positive
  | case2 rounds bc nc p outside cmd size inside =>
    obtain ⟨keeps, -⟩ := Bool.and_eq_true_iff.mp kept
    exact upcase_pos (of_decide_eq_true keeps) (by omega) inside
  | case3 rounds bc nc p outside cmd size inside ih =>
    obtain ⟨-, rest⟩ := Bool.and_eq_true_iff.mp kept
    exact ih rest
  | case4 => exact positive

theorem blocks_keep : keepsAll cvt1.length cvt1 = true ∧ keepsAll cvt2.length cvt2 = true := by
  decide +kernel

/-- Only the terminator is compared like the terminator. -/
theorem ffWtoupper_zero {c : Nat} (same : ffWtoupper c = ffWtoupper 0) : c = 0 := by
  by_contra some'
  have positive := Nat.pos_of_ne_zero some'
  have zero : ffWtoupper 0 = 0 := by decide +kernel
  rw [zero, ffWtoupper] at same
  split at same
  · split at same
    · exact absurd same (Nat.ne_of_gt (wtoupperLoop_pos positive blocks_keep.1))
    · exact absurd same (Nat.ne_of_gt (wtoupperLoop_pos positive blocks_keep.2))
  · exact some' same

/-- The code page has no character twice, and its lower half is ASCII. -/
theorem oem_back : ∀ b < 256, ffUni2oem (ffOem2uni b) = b ∧ (0x80 ≤ ffOem2uni b ↔ 0x80 ≤ b) ∧
    (ffOem2uni b < 0x80 → ffOem2uni b = b) ∧ (ffOem2uni b = 0 ↔ b = 0) := by
  decide +kernel

end Characters

end MultiZone.Fat
