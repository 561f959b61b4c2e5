import MultiZone.Pmp.Napot

/-! What zone 2 prints for an entry is the region that the entry matches, but for a
first entry of type TOR, for which it reads in front of its array. -/
namespace MultiZone.Pmp
open Memory

inductive Field where
  | off
  | tor
  | na4
  | napot
  deriving DecidableEq, Repr

def field (config : BitVec 8) : Field :=
  match config.extractLsb' 3 2 with
  | 0 => .off
  | 1 => .tor
  | 2 => .na4
  | 3 => .napot

def Registers.config (s : Registers) (i : Fin 16) : BitVec 8 :=
  if i.val < 8 then s.pmpcfg0.extractLsb' (8 * i.val) 8
  else s.pmpcfg2.extractLsb' (8 * (i.val - 8)) 8

def Registers.bottom (s : Registers) (i : Fin 16) : Nat :=
  if h : 0 < i.val then (s.pmpaddr ⟨i.val - 1, by omega⟩).toNat * 4 else 0

def Registers.top (s : Registers) (i : Fin 16) : Nat := (s.pmpaddr i).toNat * 4

/-- The entry matches a byte address, by the rules of the architecture. -/
def Matches (s : Registers) (i : Fin 16) (a : Nat) : Prop :=
  match field (s.config i) with
  | .off => False
  | .tor => s.bottom i ≤ a ∧ a < s.top i
  | .na4 => a / 4 = (s.pmpaddr i).toNat
  | .napot => Covers (s.pmpaddr i).toNat (a / 4)

def EmptyRange (s : Registers) (i : Fin 16) : Prop :=
  field (s.config i) = .tor ∧ s.top i ≤ s.bottom i

/-- Nothing is read outside of the array, what is off is skipped, and what is computed
for another entry is what it matches. -/
def Decodes (s : Registers) (i : Fin 16) : Prop :=
  ∃ row, Zone2.entry s i = some row ∧ (row = none ↔ field (s.config i) = .off) ∧
    ∀ r, row = some r → ¬ EmptyRange s i → ∀ a < 2 ^ 56,
      r.start.toNat ≤ a ∧ a ≤ r.stop.toNat ↔ Matches s i a

theorem config_eq (s : Registers) (i : Fin 16) : s.config i = s.cfg i := by
  have inside := i.isLt
  unfold Registers.config Registers.cfg
  rw [BitVec.setWidth_ushiftRight_eq_extractLsb]
  split
  · rename_i first
    rw [Nat.mod_eq_of_lt first]
  · rename_i second
    rw [show i.val - 8 = i.val % 8 by omega]

theorem field_mode (config : BitVec 8) :
    (config &&& (tor ||| na4 ||| napot) = tor ↔ field config = .tor) ∧
      (config &&& (tor ||| na4 ||| napot) = na4 ↔ field config = .na4) ∧
      (config &&& (tor ||| na4 ||| napot) = napot ↔ field config = .napot) := by
  revert config
  decide

theorem addr_at (s : Registers) (i : Fin 16) : s.addr i = some ((s.pmpaddr i).setWidth 64) :=
  dif_pos ⟨Int.natCast_nonneg i, Int.ofNat_lt.mpr i.isLt⟩

section Numbers

theorem bytes_toNat (x : BitVec 54) : ((x.setWidth 64) <<< 2).toNat = x.toNat * 4 := by
  have small := x.isLt
  rw [BitVec.toNat_shiftLeft, word_toNat, Nat.shiftLeft_eq]
  omega

end Numbers

section Entries

variable {s : Registers} {i : Fin 16}

theorem entry_off (off : field (s.config i) = .off) : Zone2.entry s i = some none := by
  obtain ⟨tor_iff, na4_iff, napot_iff⟩ := field_mode (s.cfg i)
  rw [config_eq] at off
  rw [off] at tor_iff na4_iff napot_iff
  unfold Zone2.entry
  dsimp only
  rw [if_neg (by rw [tor_iff]; decide), if_neg (by rw [na4_iff]; decide),
    if_neg (by rw [napot_iff]; decide)]

theorem entry_tor (mode : field (s.config i) = .tor) : Zone2.entry s i = (do
    let below ← s.addr (i - 1)
    let pmpaddr ← s.addr i
    some (some ⟨below <<< 2, (pmpaddr <<< 2) - 1, some .tor⟩)) := by
  rw [config_eq] at mode
  exact if_pos ((field_mode (s.cfg i)).1.mpr mode)

theorem entry_na4 (mode : field (s.config i) = .na4) : Zone2.entry s i =
    some (some ⟨(s.pmpaddr i).setWidth 64 <<< 2,
      ((s.pmpaddr i).setWidth 64 <<< 2) + 4 - 1, some .na4⟩) := by
  rw [config_eq] at mode
  obtain ⟨tor_iff, na4_iff, -⟩ := field_mode (s.cfg i)
  rw [mode] at tor_iff
  unfold Zone2.entry
  dsimp only
  rw [if_neg (by rw [tor_iff]; decide), if_pos (na4_iff.mpr mode), addr_at]
  rfl

theorem entry_napot (mode : field (s.config i) = .napot) : Zone2.entry s i =
    (Zone2.napotLoop ((s.pmpaddr i).setWidth 64) 64 0).map some := by
  rw [config_eq] at mode
  obtain ⟨tor_iff, na4_iff, napot_iff⟩ := field_mode (s.cfg i)
  rw [mode] at tor_iff na4_iff
  unfold Zone2.entry
  dsimp only
  rw [if_neg (by rw [tor_iff]; decide), if_neg (by rw [na4_iff]; decide),
    if_pos (napot_iff.mpr mode), addr_at]
  rfl

theorem decodes_tor (mode : field (s.config i) = .tor) : Decodes s i ↔ i ≠ 0 := by
  have entry := entry_tor mode
  constructor
  · rintro ⟨row, read, -⟩ rfl
    rw [entry] at read
    cases read
  · intro later
    have positive : 0 < i.val := Nat.pos_of_ne_zero fun zero => later (Fin.ext zero)
    have below := addr_at s ⟨i.val - 1, by omega⟩
    rw [show ((⟨i.val - 1, by omega⟩ : Fin 16).val : Int) = i.val - 1 by simp; omega] at below
    simp only [below, addr_at, bind, Option.bind] at entry
    refine ⟨_, entry, by simp [mode], fun r row nonempty a small => ?_⟩
    obtain rfl := Option.some.inj row
    have range : s.bottom i < s.top i := Nat.lt_of_not_le fun empty => nonempty ⟨mode, empty⟩
    have bottom : s.bottom i = (s.pmpaddr ⟨i.val - 1, by omega⟩).toNat * 4 := dif_pos positive
    have stop : ((s.pmpaddr i).setWidth 64 <<< 2 - 1).toNat + 1 = s.top i := by
      have bytes := bytes_toNat (s.pmpaddr i)
      have positive : 0 < s.top i := Nat.lt_of_le_of_lt (Nat.zero_le _) range
      have small := ((s.pmpaddr i).setWidth 64 <<< 2).isLt
      rw [BitVec.toNat_sub]
      change (2 ^ 64 - 1 + _) % 2 ^ 64 + 1 = _
      unfold Registers.top at *
      omega
    simp only [Matches, mode, bottom, bytes_toNat]
    omega

theorem decodes_na4 (mode : field (s.config i) = .na4) : Decodes s i := by
  refine ⟨_, entry_na4 mode, by simp [mode], fun r row _ a small => ?_⟩
  obtain rfl := Option.some.inj row
  have start := bytes_toNat (s.pmpaddr i)
  have small := (s.pmpaddr i).isLt
  have stop := @last_toNat ((s.pmpaddr i).setWidth 64 <<< 2) 4 (by decide) (by
    rw [start]
    change _ + 4 ≤ _
    omega)
  rw [start] at stop
  change _ = _ + 4 at stop
  simp only [Matches, mode, start]
  omega

theorem decodes_napot (mode : field (s.config i) = .napot) : Decodes s i := by
  obtain ⟨z, le, lowest⟩ := exists_lowestZero (s.pmpaddr i).isLt
  obtain ⟨start, size, computed, at_start, at_size, room⟩ := napot_row lowest le
  have stop := last_toNat (at_size ▸ Nat.two_pow_pos _) room
  have entry := entry_napot mode
  rw [computed, Option.map_some] at entry
  refine ⟨_, entry, by simp [mode], fun r' row _ a _ => ?_⟩
  obtain rfl := Option.some.inj row
  have block : Covers (s.pmpaddr i).toNat (a / 4) ↔
      start.toNat ≤ a ∧ a < start.toNat + size.toNat := by
    rw [at_start, at_size]
    exact covers_block lowest 2
  simp only [Matches, mode]
  rw [block]
  omega

/-- An entry is decoded as it should be exactly if it is not a first one of type TOR. -/
theorem decodes_iff (s : Registers) (i : Fin 16) :
    Decodes s i ↔ ¬ (i = 0 ∧ field (s.config i) = .tor) := by
  cases mode : field (s.config i) with
  | off => exact iff_of_true ⟨none, entry_off mode, by simp [mode], by simp⟩ (by simp)
  | tor => simpa using decodes_tor mode
  | na4 => exact iff_of_true (decodes_na4 mode) (by simp)
  | napot => exact iff_of_true (decodes_napot mode) (by simp)

/-- A first entry of type TOR, up to the given address. -/
def firstTor (pmpaddr : BitVec 54) : Registers := ⟨0x08, 0, fun _ => pmpaddr⟩

theorem firstTor_undefined : field ((firstTor 1).config 0) = .tor ∧
    Matches (firstTor 1) 0 3 ∧ Zone2.entry (firstTor 1) 0 = none ∧
    Zone2.printPmp (firstTor 1) = none ∧ ¬ Decodes (firstTor 1) 0 := by
  refine ⟨rfl, ⟨Nat.zero_le 3, by decide⟩, rfl, rfl, ?_⟩
  rintro ⟨row, read, -⟩
  cases read

end Entries

end MultiZone.Pmp
