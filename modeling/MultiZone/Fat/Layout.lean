import MultiZone.Fat.Mount

/-! What a volume that mount_volume accepts is like: the bounds that it takes from the boot sector, and
which of them it has checked. -/
namespace MultiZone.Fat
open Memory

section Layout

variable {d : Drive} {v fs : Volume} {win : Nat → Byte} {bsect id : Nat}

/-- The reserved sectors, the FATs and the root directory. -/
def systemSectors (win : Nat → Byte) : Nat :=
  ldWord win 14 + fatSize win * (win 16).toNat + ldWord win 17 / 16

/-- Their number is below 2^32. -/
def NoWrap (win : Nat → Byte) : Prop := systemSectors win < 2 ^ 32

/-- What mount_volume takes from the boot sector of a FAT volume, and has made sure of. -/
structure Layout (win : Nat → Byte) (bsect : Nat) (v : Volume) : Prop where
  known : v.fsType = .fat12 ∨ v.fsType = .fat16 ∨ v.fsType = .fat32
  csize : v.csize = (win 13).toNat
  csize_pow : ∃ k ≤ 15, v.csize = 2 ^ k
  nFatent : v.nFatent = (totalSectors win - systemSectors win % 2 ^ 32) / v.csize + 2
  clusters : 2 < v.nFatent
  few : v.nFatent ≤ 0x7FFFFFFF
  fatRoom : fatBytes v.fsType v.nFatent ≤ 512 * v.fsize
  reserved : 0 < ldWord win 14
  fsize : v.fsize = fatSize win
  nFats : v.nFats = (win 16).toNat ∧ v.nFats ≤ 2 ∧ 0 < v.nFats
  nRootdir : v.nRootdir = ldWord win 17 ∧ v.nRootdir % 16 = 0 ∧ (v.nRootdir = 0 ↔ v.fsType = .fat32)
  volbase : v.volbase = bsect
  fatbase : v.fatbase = (bsect + ldWord win 14) % 2 ^ 64
  dirbase : v.dirbase = if v.fsType = .fat32 then ldDword win 44
    else (v.fatbase + v.fsize * v.nFats % 2 ^ 32) % 2 ^ 64
  database : v.database = (bsect + systemSectors win % 2 ^ 32) % 2 ^ 64
  data : systemSectors win % 2 ^ 32 + v.csize * (v.nFatent - 2) ≤ totalSectors win

theorem csize_byte : ∀ b < 256, b ≠ 0 → b &&& (b - 1) = 0 → ∃ k ≤ 15, b = 2 ^ k := by
  decide +kernel

theorem mountFat_layout (mounted : mountFat win bsect id fs = some v) : Layout win bsect v := by
  obtain ⟨-, mounted⟩ := Option.ite_none_left_eq_some.mp mounted
  obtain ⟨fats, mounted⟩ := Option.ite_none_left_eq_some.mp mounted
  obtain ⟨csize, mounted⟩ := Option.ite_none_left_eq_some.mp mounted
  obtain ⟨aligned, mounted⟩ := Option.ite_none_left_eq_some.mp mounted
  obtain ⟨reserved, mounted⟩ := Option.ite_none_left_eq_some.mp mounted
  obtain ⟨large, mounted⟩ := Option.ite_none_left_eq_some.mp mounted
  obtain ⟨some', mounted⟩ := Option.ite_none_left_eq_some.mp mounted
  obtain ⟨few, mounted⟩ := Option.ite_none_left_eq_some.mp mounted
  obtain ⟨fat32, mounted⟩ := Option.ite_none_left_eq_some.mp mounted
  obtain ⟨other, mounted⟩ := Option.ite_none_left_eq_some.mp mounted
  obtain ⟨room, mounted⟩ := Option.ite_none_left_eq_some.mp mounted
  obtain rfl := Option.some.inj mounted
  rw [not_or, Decidable.not_not] at csize
  have sum : (ldWord win 14 + fatSize win * (win 16).toNat % 2 ^ 32 + ldWord win 17 / 16) % 2 ^ 32 =
      systemSectors win % 2 ^ 32 := by
    rw [systemSectors]
    generalize fatSize win * (win 16).toNat = area
    omega
  rw [sum] at large some' few room fat32 other ⊢
  have whole := Nat.mul_div_le (totalSectors win - systemSectors win % 2 ^ 32) (win 13).toNat
  have pow := csize_byte _ (win 13).toNat_lt csize.1 csize.2
  generalize nclusters : (totalSectors win - systemSectors win % 2 ^ 32) / (win 13).toNat = nclst at *
  constructor
  case known =>
    dsimp only
    split
    · exact .inl rfl
    · split
      · exact .inr (.inl rfl)
      · exact .inr (.inr rfl)
  case csize | fsize | volbase | fatbase | dirbase | database => rfl
  case csize_pow => exact pow
  case nFatent =>
    dsimp only
    rw [nclusters]
  case clusters | few | fatRoom | nFats =>
    dsimp only
    omega
  case reserved => exact Nat.pos_of_ne_zero reserved
  case nRootdir =>
    refine ⟨rfl, Decidable.not_not.mp aligned, fun zero => ?_, fun kind => ?_⟩
    · by_contra kind
      exact other ⟨kind, zero⟩
    · by_contra root
      exact fat32 ⟨kind, .inr root⟩
  case data =>
    dsimp only
    rw [Nat.add_sub_cancel]
    omega

theorem ldWord_lt (win : Nat → Byte) (ptr : Nat) : ldWord win ptr < 2 ^ 16 := by
  have small := number_lt (window win ptr 2)
  rwa [window_length] at small

theorem ldDword_lt (win : Nat → Byte) (ptr : Nat) : ldDword win ptr < 2 ^ 32 := by
  have small := number_lt (window win ptr 4)
  rwa [window_length] at small

theorem fatSize_lt (win : Nat → Byte) : fatSize win < 2 ^ 32 := by
  unfold fatSize
  split
  · exact ldDword_lt win 36
  · exact Nat.lt_trans (ldWord_lt win 22) (by decide)

/-- The FATs lie in front of the clusters exactly if the sizes could be added up. -/
theorem Layout.ordered (layout : Layout win bsect v) (low : bsect < 2 ^ 63) :
    v.fatbase + v.fsize * v.nFats ≤ v.database ↔ NoWrap win := by
  have reserved := ldWord_lt win 14
  have root := ldWord_lt win 17
  have area : v.fsize * v.nFats ≤ fatSize win * 2 := by
    rw [layout.fsize]
    exact Nat.mul_le_mul_left _ layout.nFats.2.1
  have size := fatSize_lt win
  have same : v.fsize * v.nFats = fatSize win * (win 16).toNat := by
    rw [layout.fsize, layout.nFats.1]
  rw [layout.fatbase, layout.database, NoWrap]
  unfold systemSectors
  rw [← same]
  generalize v.fsize * v.nFats = fats at *
  omega

/-- A volume that is mounted lies on the card as the functions that read it expect. -/
theorem Layout.sound (layout : Layout win bsect v) (noWrap : NoWrap win) (low : bsect < 2 ^ 63)
    (numbered : d.sectors ≤ noSector) (inside : bsect + totalSectors win ≤ d.sectors) :
    v.Sound ∧ Fits d v := by
  have ordered := (layout.ordered low).mpr noWrap
  have one : v.fsize ≤ v.fsize * v.nFats := Nat.le_mul_of_pos_right _ layout.nFats.2.2
  have reserved := layout.reserved
  have data := layout.data
  have database := layout.database
  unfold NoWrap at noWrap
  have behind : ldWord win 14 ≤ systemSectors win := by
    rw [systemSectors, Nat.add_assoc]
    exact Nat.le_add_right _ _
  have placed : v.database = bsect + systemSectors win := by omega
  exact ⟨⟨layout.csize_pow, by omega, layout.few, layout.fatRoom⟩, numbered, by omega, by omega⟩

end Layout

section Exfat

variable {d : Drive} {v fs : Volume} {w w' : Win} {bsect id bcl : Nat}

/-- What mount_volume takes from the boot sector of an exFAT volume, and has made sure of. -/
structure ExfatLayout (win : Nat → Byte) (bsect : Nat) (v : Volume) : Prop where
  kind : v.fsType = .exfat
  csize : v.csize = shiftOne (win 109)
  csize_pow : ∃ k ≤ 15, v.csize = 2 ^ k
  nFatent : v.nFatent = ldDword win 92 + 2
  few : v.nFatent ≤ 0x7FFFFFFF
  fsize : v.fsize = ldDword win 84
  nFats : v.nFats = 1 ∧ (win 110).toNat = 1
  volbase : v.volbase = bsect
  fatbase : v.fatbase = (bsect + ldDword win 80) % 2 ^ 64
  dirbase : v.dirbase = ldDword win 96
  database : v.database = (bsect + ldDword win 88) % 2 ^ 64
  data : (v.database + (v.nFatent - 2) * v.csize % 2 ^ 32) % 2 ^ 64 ≤
    (ldQword win 72 + bsect) % 2 ^ 64

/-- The number that the FAT of an exFAT volume holds for a cluster. -/
def fatLink (d : Drive) (v : Volume) (clst : Nat) : Nat :=
  number (window d.bytes (512 * v.fatbase + 4 * clst) 4)

/-- Entry `p` of the root directory is the first one of a bitmap from entry `p₀` on. -/
structure BitmapEntry (d : Drive) (v : Volume) (p₀ p bcl : Nat) : Prop where
  type : d.bytes (512 * clst2sect v v.dirbase + 32 * p) = 0x81
  first : ∀ q, p₀ ≤ q → q < p → d.bytes (512 * clst2sect v v.dirbase + 32 * q) ≠ 0x81
  cluster : bcl = number (window d.bytes (512 * clst2sect v v.dirbase + 32 * p + 20) 4)

/-- The clusters from `bcl` on follow each other, and the last of them ends a file. -/
def Consecutive (d : Drive) (v : Volume) (bcl : Nat) : Prop :=
  ∃ last, bcl ≤ last ∧ (∀ c, bcl ≤ c → c < last → fatLink d v c = c + 1) ∧
    fatLink d v last = 0xFFFFFFFF

structure BitmapAt (d : Drive) (v : Volume) (bcl : Nat) : Prop where
  entry : ∃ p < 16 * v.csize, BitmapEntry d v 0 p bcl
  inside : 2 ≤ bcl ∧ bcl < v.nFatent
  bitbase : v.bitbase = (v.database + v.csize * (bcl - 2) % 2 ^ 32) % 2 ^ 64
  consecutive : Consecutive d v bcl

theorem moveWindow_ok {sect : Nat} (valid : w.Valid d) (present : sect ≠ noSector)
    (ok : moveWindow d w sect = (.ok, w')) : w'.Valid d ∧ w'.Shows d sect := by
  have valid' := moveWindow_valid sect valid
  rw [ok] at valid'
  refine ⟨valid', ?_⟩
  have same : w'.winsect = sect := by
    unfold moveWindow at ok
    split at ok
    · dsimp only at ok
      split at ok <;> cases ok
      rfl
    · rename_i here
      cases ok
      exact (Decidable.not_not.mp here).symm
  rw [← same] at present ⊢
  exact valid' present

theorem entry_shown {so : Nat} (shows : w.Shows d (clst2sect v v.dirbase + so)) {i : Nat}
    (few : i < 16) : w.win (32 * i) = d.bytes (512 * clst2sect v v.dirbase + 32 * (16 * so + i)) ∧
      ldDword w.win (32 * i + 20) =
        number (window d.bytes (512 * clst2sect v v.dirbase + 32 * (16 * so + i) + 20) 4) := by
  constructor
  · rw [shows (32 * i) (by omega)]
    congr 1
    omega
  · rw [ldDword, shows.window_eq (by omega)]
    congr 2
    omega

theorem entry_passed {so q : Nat} (shows : w.Shows d (clst2sect v v.dirbase + so))
    (after : 16 * so ≤ q) (before : q < 16 * (so + 1))
    (passed : (!decide (w.win (32 * (q - 16 * so)) = 0x81)) = true) :
    d.bytes (512 * clst2sect v v.dirbase + 32 * q) ≠ 0x81 := by
  have shown := (entry_shown (v := v) shows (i := q - 16 * so) (by omega)).1
  have place : 16 * so + (q - 16 * so) = q := by omega
  rw [place] at shown
  rw [← shown]
  simpa using passed

theorem findBitmap_entry {n so : Nat} (valid : w.Valid d)
    (low : clst2sect v v.dirbase + (so + n) ≤ noSector)
    (run : findBitmap d v n so w = (.ok bcl, w')) : w'.Valid d ∧
      ∃ p, 16 * so ≤ p ∧ p < 16 * (so + n) ∧ BitmapEntry d v (16 * so) p bcl := by
  induction n generalizing w so with
  | zero => cases run
  | succ n ih =>
    have inside : clst2sect v v.dirbase + so < noSector := by omega
    have place : (clst2sect v v.dirbase + so) % 2 ^ 64 = clst2sect v v.dirbase + so := by
      unfold noSector at inside
      omega
    rw [findBitmap, place] at run
    cases moved : moveWindow d w (clst2sect v v.dirbase + so) with
    | mk res w₁ =>
      rw [moved] at run
      cases res with
      | ok =>
        obtain ⟨valid₁, shows⟩ := moveWindow_ok valid (Nat.ne_of_lt inside) moved
        dsimp only at run
        split at run
        · rename_i i found
          cases run
          obtain ⟨type, few, passed⟩ := List.find?_range_eq_some.mp found
          rw [List.mem_range] at few
          have shown := entry_shown shows few
          refine ⟨valid₁, 16 * so + i, by omega, by omega, ?_, ?_, shown.2⟩
          · rw [← shown.1]
            exact of_decide_eq_true type
          · intro q after before
            exact entry_passed shows after (by omega) (passed (q - 16 * so) (by omega))
        · rename_i none'
          have passed := List.find?_range_eq_none.mp none'
          obtain ⟨valid', p, after, before, entry⟩ := ih valid₁ (by omega) run
          refine ⟨valid', p, by omega, by omega, entry.type, ?_, entry.cluster⟩
          intro q late early
          by_cases here : q < 16 * (so + 1)
          · exact entry_passed shows late here (passed (q - 16 * so) (by omega))
          · exact entry.first q (by omega) early
      | _ => cases run

theorem contiguous_consecutive {rounds : Nat} (valid : w.Valid d) (low : v.fatbase + 2 ^ 32 ≤ noSector)
    (small : bcl < 2 ^ 32 - 1) (run : contiguous d v rounds bcl w = (.ok, w')) :
    w'.Valid d ∧ Consecutive d v bcl := by
  induction rounds generalizing w bcl with
  | zero => cases run
  | succ rounds ih =>
    have inside : v.fatbase + bcl / 128 < noSector := by omega
    have place : (v.fatbase + bcl / 128) % 2 ^ 64 = v.fatbase + bcl / 128 := by
      unfold noSector at inside
      omega
    rw [contiguous, place] at run
    cases moved : moveWindow d w (v.fatbase + bcl / 128) with
    | mk res w₁ =>
      rw [moved] at run
      cases res with
      | ok =>
        obtain ⟨valid₁, shows⟩ := moveWindow_ok valid (Nat.ne_of_lt inside) moved
        have link : ldDword w₁.win (bcl % 128 * 4) = fatLink d v bcl := by
          rw [ldDword, fatLink, shows.window_eq (by omega)]
          congr 2
          omega
        dsimp only at run
        rw [link] at run
        split at run
        · rename_i last
          cases run
          exact ⟨valid₁, bcl, Nat.le_refl bcl, fun c after before => by omega, last⟩
        · split at run
          · cases run
          · rename_i more next
            have linked : fatLink d v bcl = bcl + 1 := by omega
            obtain ⟨valid', last, after, links, ends⟩ := ih valid₁ (by omega) run
            refine ⟨valid', last, by omega, fun c late early => ?_, ends⟩
            rcases Nat.eq_or_lt_of_le late with rfl | later
            · exact linked
            · exact links c later early
      | _ => cases run

theorem contiguous_ends {rounds : Nat} (small : bcl < 2 ^ 32 - 1) (enough : 2 ^ 32 ≤ bcl + rounds)
    (w : Win) : (contiguous d v rounds bcl w).1 ∈ [.ok, .diskErr, .noFilesystem] := by
  induction rounds generalizing w bcl with
  | zero => omega
  | succ rounds ih =>
    rw [contiguous]
    split
    · rename_i w₁ _
      dsimp only
      split
      · simp
      · split
        · simp
        · rename_i more next
          exact ih (by omega) (by omega) w₁
    · simp

theorem findBitmap_fails (n so : Nat) (w : Win) {res : FResult}
    (failed : (findBitmap d v n so w).1 = .error res) : res ∈ [.diskErr, .noFilesystem] := by
  induction n generalizing w so with
  | zero =>
    cases failed
    simp
  | succ n ih =>
    rw [findBitmap] at failed
    split at failed
    · split at failed
      · cases failed
      · exact ih _ _ failed
    · cases failed
      simp

theorem shiftOne_word {n : Byte} (fits : shiftOne n % 2 ^ 16 ≠ 0) :
    shiftOne n % 2 ^ 16 = shiftOne n ∧ ∃ k ≤ 15, shiftOne n = 2 ^ k := by
  unfold shiftOne at *
  have small : n.toNat % 32 ≤ 15 := by
    by_contra large
    exact fits (Nat.mod_eq_zero_of_dvd (Nat.pow_dvd_pow 2 (by omega)))
  exact ⟨Nat.mod_eq_of_lt (Nat.pow_lt_pow_right (by decide) (by omega)), _, small, rfl⟩

theorem mountExfat_layout (mounted : mountExfat w.win bsect id fs = some v) :
    ExfatLayout w.win bsect v := by
  obtain ⟨-, mounted⟩ := Option.ite_none_left_eq_some.mp mounted
  obtain ⟨-, mounted⟩ := Option.ite_none_left_eq_some.mp mounted
  obtain ⟨-, mounted⟩ := Option.ite_none_left_eq_some.mp mounted
  obtain ⟨fats, mounted⟩ := Option.ite_none_left_eq_some.mp mounted
  obtain ⟨csize, mounted⟩ := Option.ite_none_left_eq_some.mp mounted
  obtain ⟨few, mounted⟩ := Option.ite_none_left_eq_some.mp mounted
  obtain ⟨data, mounted⟩ := Option.ite_none_left_eq_some.mp mounted
  obtain rfl := Option.some.inj mounted
  obtain ⟨word, pow⟩ := shiftOne_word csize
  constructor
  case kind | nFatent | fsize | volbase | fatbase | dirbase | database => rfl
  case csize => exact word
  case csize_pow =>
    rw [word]
    exact pow
  case few =>
    dsimp only
    omega
  case nFats => exact ⟨rfl, by rw [Decidable.not_not.mp fats]; rfl⟩
  case data =>
    dsimp only
    rw [Nat.add_sub_cancel]
    exact Nat.le_of_not_lt data

theorem clst2sect_le (clst : Nat) : clst2sect v clst ≤ v.database + v.csize * v.nFatent := by
  unfold clst2sect
  dsimp only
  split
  · exact Nat.zero_le _
  · rename_i inside
    exact Nat.add_le_add_left (Nat.mul_le_mul_left _ (by omega)) _

theorem mountBitmap_cases (mounted : (mountBitmap d fs w).fs = some v) : ∃ bcl w₁ w₂ bitbase,
    findBitmap d fs fs.csize 0 w = (.ok bcl, w₁) ∧ 2 ≤ bcl ∧ bcl < fs.nFatent ∧
      contiguous d fs (2 ^ 32 - bcl) bcl w₁ = (.ok, w₂) ∧
      bitbase = (fs.database + fs.csize * (bcl - 2) % 2 ^ 32) % 2 ^ 64 ∧
      v = { fs with bitbase := bitbase } ∧ (mountBitmap d fs w).w = w₂ := by
  unfold mountBitmap at mounted ⊢
  split at mounted
  · rename_i bcl w₁ found
    split at mounted
    · cases mounted
    · rename_i inside
      split at mounted
      · rename_i w₂ linked
        refine ⟨bcl, w₁, w₂, _, found, by omega, by omega, linked, rfl,
          (Option.some.inj mounted).symm, ?_⟩
        simp only [if_neg inside]
      · cases mounted
  · cases mounted

theorem mountBitmap_at (layout : ExfatLayout w.win bsect fs) (low : bsect < 2 ^ 63) (valid : w.Valid d)
    (mounted : (mountBitmap d fs w).fs = some v) : ExfatLayout w.win bsect v ∧ ∃ bcl, BitmapAt d v bcl := by
  obtain ⟨bcl, w₁, w₂, bitbase, found, two, inside, linked, place, rfl, -⟩ := mountBitmap_cases mounted
  have few := layout.few
  have dword := ldDword_lt w.win 88
  have fat := ldDword_lt w.win 80
  obtain ⟨k, short, pow⟩ := layout.csize_pow
  have small : fs.csize ≤ 2 ^ 15 := pow ▸ Nat.pow_le_pow_right (by decide) short
  have area : fs.csize * fs.nFatent ≤ 2 ^ 15 * 0x7FFFFFFF := Nat.mul_le_mul small few
  have root := clst2sect_le (v := fs) fs.dirbase
  have database := layout.database
  have fatbase := layout.fatbase
  obtain ⟨valid₁, p, -, before, entry⟩ := findBitmap_entry valid (by unfold noSector; omega) found
  obtain ⟨-, consecutive⟩ := contiguous_consecutive valid₁ (by unfold noSector; omega) (by omega) linked
  refine ⟨⟨layout.kind, layout.csize, layout.csize_pow, layout.nFatent, layout.few, layout.fsize,
    layout.nFats, layout.volbase, layout.fatbase, layout.dirbase, layout.database, layout.data⟩, bcl,
    ⟨⟨p, ?_, entry.type, entry.first, entry.cluster⟩, ⟨two, inside⟩, place, consecutive⟩⟩
  rwa [Nat.zero_add] at before

end Exfat

section Mounted

variable {d : Drive} {v fs : Volume} {w : Win} {id : Nat}

theorem mountVolume_cases (mounted : (mountVolume d fs id w).fs = some v) :
    let r := findVolume d w
    d.initialized = true ∧ r.2.Valid d ∧ bootSector r.2.win = r.1 ∧
      (r.1 = .fat ∧ mountFat r.2.win r.2.winsect id fs = some v ∧
          mountVolume d fs id w = ⟨.ok, some v, r.2⟩ ∨
        r.1 = .exfat ∧ ∃ fs', mountExfat r.2.win r.2.winsect id fs = some fs' ∧
          (mountBitmap d fs' r.2).fs = some v) := by
  have found := findVolume_atBoot (d := d) w
  unfold mountVolume at mounted ⊢
  split at mounted
  · rename_i ready
    rw [if_pos ready]
    generalize findVolume d w = r at *
    obtain ⟨status, w'⟩ := r
    cases status with
    | fat =>
      dsimp only at mounted ⊢
      cases taken : mountFat w'.win w'.winsect id fs with
      | none =>
        rw [taken] at mounted
        cases mounted
      | some fs' =>
        rw [taken] at mounted
        cases mounted
        exact ⟨ready, found.1, found.2 (.inl rfl), .inl ⟨rfl, rfl, rfl⟩⟩
    | exfat =>
      dsimp only at mounted ⊢
      cases taken : mountExfat w'.win w'.winsect id fs with
      | none =>
        rw [taken] at mounted
        cases mounted
      | some fs' =>
        rw [taken] at mounted
        exact ⟨ready, found.1, found.2 (.inr rfl), .inr ⟨rfl, fs', rfl, mounted⟩⟩
    | _ => cases mounted
  · cases mounted

theorem mountVolume_fat (mounted : (mountVolume d fs id w).fs = some v) (kind : v.fsType ≠ .exfat) :
    d.initialized = true ∧ (mountVolume d fs id w).res = .ok ∧
      (mountVolume d fs id w).w.Valid d ∧
      Layout (mountVolume d fs id w).w.win (mountVolume d fs id w).w.winsect v := by
  obtain ⟨ready, valid, -, ⟨-, taken, run⟩ | ⟨-, fs', taken, bitmap⟩⟩ := mountVolume_cases mounted
  · rw [run]
    exact ⟨ready, rfl, valid, mountFat_layout taken⟩
  · obtain ⟨bcl, w₁, w₂, bitbase, -, -, -, -, -, rfl, -⟩ := mountBitmap_cases bitmap
    exact absurd (mountExfat_layout taken).kind kind

theorem mountBitmap_fails (few : fs.nFatent ≤ 0x7FFFFFFF) (none' : (mountBitmap d fs w).fs = none) :
    (mountBitmap d fs w).res ∈ [.diskErr, .noFilesystem] := by
  unfold mountBitmap at none' ⊢
  rcases found : findBitmap d fs fs.csize 0 w with ⟨res | bcl, w₁⟩
  · exact findBitmap_fails _ _ w (congrArg Prod.fst found)
  · rw [found] at none'
    dsimp only at none' ⊢
    split
    · simp
    · rename_i inside
      have ends := @contiguous_ends d fs bcl (2 ^ 32 - bcl) (by omega) (by omega) w₁
      rw [if_neg inside] at none'
      generalize contiguous d fs (2 ^ 32 - bcl) bcl w₁ = r at *
      obtain ⟨res, w₂⟩ := r
      cases res <;> simp_all

/-- Without a volume the result is an error, and not that the rounds of a loop have run out. -/
theorem mountVolume_fails (none' : (mountVolume d fs id w).fs = none) :
    (mountVolume d fs id w).res ∈ [.notReady, .diskErr, .noFilesystem] := by
  unfold mountVolume at none' ⊢
  split
  · rename_i ready
    rw [if_pos ready] at none'
    generalize findVolume d w = r at *
    obtain ⟨status, w₁⟩ := r
    cases status with
    | exfat =>
      dsimp only at none' ⊢
      cases taken : mountExfat w₁.win w₁.winsect id fs with
      | none => simp
      | some fs' =>
        rw [taken] at none'
        exact List.mem_cons_of_mem _ (mountBitmap_fails (mountExfat_layout taken).few none')
    | fat =>
      dsimp only at none' ⊢
      cases taken : mountFat w₁.win w₁.winsect id fs with
      | none => simp
      | some fs' =>
        rw [taken] at none'
        cases none'
    | _ => simp
  · simp

end Mounted

section Floppy

/-- A card with an exFAT volume, whose bitmap is in its first cluster and which the root directory
names in its first entry. -/
def exfatBytes : Nat → Byte
  | 0 => 0xEB
  | 1 => 0x76
  | 2 => 0x90
  | 3 => 0x45
  | 4 => 0x58
  | 5 => 0x46
  | 6 => 0x41
  | 7 => 0x54
  | 8 => 0x20
  | 9 => 0x20
  | 10 => 0x20
  | 72 => 64
  | 80 => 24
  | 84 => 1
  | 88 => 32
  | 92 => 16
  | 96 => 4
  | 105 => 1
  | 108 => 9
  | 110 => 1
  | 510 => 0x55
  | 511 => 0xAA
  | 12296 => 0xFF
  | 12297 => 0xFF
  | 12298 => 0xFF
  | 12299 => 0xFF
  | 17408 => 0x81
  | 17428 => 2
  | _ => 0

example : (mountVolume ⟨exfatBytes, 64, true, fun _ => none⟩ clearVolume 1 emptyWin).fs =
    some ⟨.exfat, 1, 1, 0, 1, 18, 1, 0, 24, 4, 32, 32⟩ := by
  decide +kernel

end Floppy

end MultiZone.Fat
