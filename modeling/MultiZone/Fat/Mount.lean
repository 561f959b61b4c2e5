import MultiZone.Fat.Entries

/-! The search for a FAT volume on the card, and what its boot sector says of its layout. -/
namespace MultiZone.Fat
open Memory

def ldQword (win : Nat → Byte) (ptr : Nat) : Nat := number (window win ptr 8)

/-- memcmp gives 0. -/
def same (win : Nat → Byte) (ptr : Nat) (s : List Byte) : Prop := window win ptr s.length = s

instance (win : Nat → Byte) (ptr : Nat) (s : List Byte) : Decidable (same win ptr s) :=
  inferInstanceAs (Decidable (_ = _))

/-- What check_fs returns, 0 to 4. -/
inductive BootSector where
  | fat
  | exfat
  | notFat
  | invalid
  | diskErr
  deriving DecidableEq, Repr

def bootSector (win : Nat → Byte) : BootSector :=
  let sign := ldWord win 510
  if sign = 0xAA55 ∧ same win 0 [0xEB, 0x76, 0x90, 0x45, 0x58, 0x46, 0x41, 0x54, 0x20, 0x20, 0x20]
  then .exfat
  else
    let b := win 0
    let w := ldWord win 11
    let csize := (win 13).toNat
    if (b = 0xEB ∨ b = 0xE9 ∨ b = 0xE8) ∧
        (sign = 0xAA55 ∧ same win 82 [0x46, 0x41, 0x54, 0x33, 0x32, 0x20, 0x20, 0x20] ∨
          w &&& (w - 1) = 0 ∧ w ≥ 512 ∧ w ≤ 512 ∧ csize ≠ 0 ∧ csize &&& (csize - 1) = 0 ∧
          ldWord win 14 ≠ 0 ∧ ((win 16).toNat + (2 ^ 32 - 1)) % 2 ^ 32 ≤ 1 ∧ ldWord win 17 ≠ 0 ∧
          (ldWord win 19 ≥ 128 ∨ ldDword win 32 ≥ 0x10000) ∧ ldWord win 22 ≠ 0)
    then .fat
    else if sign = 0xAA55 then .notFat else .invalid

def checkFs (d : Drive) (w : Win) (sect : Nat) : BootSector × Win :=
  match moveWindow d { w with winsect := noSector } sect with
  | (.ok, w) => (bootSector w.win, w)
  | (_, w) => (.diskErr, w)

def crc32 (crc : Nat) (d : Byte) : Nat :=
  (List.range 8).foldl (fun crc b =>
    let crc := crc ^^^ (if d.toNat.testBit b then 1 else 0)
    if crc &&& 1 = 1 then (crc >>> 1) ^^^ 0xEDB88320 else crc >>> 1) crc

def testGptHeader (gpth : Nat → Byte) : Bool :=
  let bcc := (List.range 92).foldl (fun bcc i =>
    crc32 bcc (if 16 ≤ i ∧ i < 20 then 0 else gpth i)) 0xFFFFFFFF
  same gpth 0 [0x45, 0x46, 0x49, 0x20, 0x50, 0x41, 0x52, 0x54, 0, 0, 1, 0, 0x5C, 0, 0, 0] ∧
    0xFFFFFFFF - bcc = ldDword gpth 16 ∧ ldDword gpth 84 = 128 ∧ ldDword gpth 80 ≤ 128

def guidMsBasic : List Byte := [0xA2, 0xA0, 0xD0, 0xEB, 0xE5, 0xB9, 0x33, 0x44, 0x87, 0xC0, 0x68,
  0xB6, 0xB7, 0x26, 0x99, 0xC7]

/-- Partition `i` of the table and the ones behind it, `n` in all. -/
def findGpt (d : Drive) (ptLba : Nat) : Nat → Nat → Win → BootSector × Win
  | 0, _, w => (.invalid, w)
  | n + 1, i, w =>
    match moveWindow d w ((ptLba + i * 128 / 512) % 2 ^ 64) with
    | (.ok, w) =>
      let ofs := i * 128 % 512
      if same w.win ofs guidMsBasic then
        let r := checkFs d w (ldQword w.win (ofs + 32))
        if r.1 = .fat ∨ r.1 = .exfat then r else findGpt d ptLba n (i + 1) r.2
      else findGpt d ptLba n (i + 1) w
    | (_, w) => (.diskErr, w)

/-- The partitions of the MBR, by their first sectors. What is found of the last one is
returned. -/
def findMbr (d : Drive) : List Nat → Win → BootSector × Win
  | [], w => (.invalid, w)
  | lba :: mbrPt, w =>
    let r := if lba ≠ 0 then checkFs d w lba else (.invalid, w)
    if r.1 = .fat ∨ r.1 = .exfat ∨ mbrPt = [] then r else findMbr d mbrPt r.2

def findVolume (d : Drive) (w : Win) : BootSector × Win :=
  match checkFs d w 0 with
  | (.notFat, w) =>
    if w.win 450 = 0xEE then
      match moveWindow d w 1 with
      | (.ok, w) =>
        if testGptHeader w.win then findGpt d (ldQword w.win 72) (ldDword w.win 80) 0 w
        else (.invalid, w)
      | (_, w) => (.diskErr, w)
    else findMbr d ((List.range 4).map fun i => ldDword w.win (446 + 16 * i + 8)) w
  | r => r

def fatSize (win : Nat → Byte) : Nat :=
  if ldWord win 22 = 0 then ldDword win 36 else ldWord win 22

def totalSectors (win : Nat → Byte) : Nat :=
  if ldWord win 19 = 0 then ldDword win 32 else ldWord win 19

/-- What mount_volume takes from the boot sector of a FAT12, FAT16 or FAT32 volume. -/
def mountFat (win : Nat → Byte) (bsect id : Nat) (fs : Volume) : Option Volume :=
  let fsize := fatSize win
  let nFats := (win 16).toNat
  let fasize := fsize * nFats % 2 ^ 32
  let csize := (win 13).toNat
  let nRootdir := ldWord win 17
  let tsect := totalSectors win
  let nrsv := ldWord win 14
  let sysect := (nrsv + fasize + nRootdir / 16) % 2 ^ 32
  let nclst := (tsect - sysect) / csize
  if ldWord win 11 ≠ 512 then none
  else if nFats ≠ 1 ∧ nFats ≠ 2 then none
  else if csize = 0 ∨ csize &&& (csize - 1) ≠ 0 then none
  else if nRootdir % 16 ≠ 0 then none
  else if nrsv = 0 then none
  else if tsect < sysect then none
  else if nclst = 0 then none
  else if nclst > 0x0FFFFFF5 then none
  else
    let fmt := if nclst ≤ 0xFF5 then FsType.fat12 else if nclst ≤ 0xFFF5 then .fat16 else .fat32
    let fatbase := (bsect + nrsv) % 2 ^ 64
    if fmt = .fat32 ∧ (ldWord win 42 ≠ 0 ∨ nRootdir ≠ 0) then none
    else if fmt ≠ .fat32 ∧ nRootdir = 0 then none
    else if fsize < (fatBytes fmt (nclst + 2) + 511) / 512 then none
    else some { fs with
      fsType := fmt
      id := id
      nFats := nFats
      nRootdir := nRootdir
      csize := csize
      nFatent := nclst + 2
      fsize := fsize
      volbase := bsect
      fatbase := fatbase
      dirbase := if fmt = .fat32 then ldDword win 44 else (fatbase + fasize) % 2 ^ 64
      database := (bsect + sysect) % 2 ^ 64 }

/-- 1 << n. Beyond 31 it has no meaning in C; the instruction takes the count modulo 32. -/
def shiftOne (n : Byte) : Nat := 2 ^ (n.toNat % 32)

/-- What mount_volume takes from the boot sector of an exFAT volume. -/
def mountExfat (win : Nat → Byte) (bsect id : Nat) (fs : Volume) : Option Volume :=
  let maxlba := (ldQword win 72 + bsect) % 2 ^ 64
  let csize := shiftOne (win 109) % 2 ^ 16
  let nclst := ldDword win 92
  let database := (bsect + ldDword win 88) % 2 ^ 64
  if ¬ same win 11 (List.replicate 53 0) then none
  else if ldWord win 104 ≠ 0x100 then none
  else if shiftOne (win 108) ≠ 512 then none
  else if win 110 ≠ 1 then none
  else if csize = 0 then none
  else if nclst > 0x7FFFFFFD then none
  else if maxlba < (database + nclst * csize % 2 ^ 32) % 2 ^ 64 then none
  else some { fs with
    fsType := .exfat
    id := id
    nFats := 1
    csize := csize
    nFatent := nclst + 2
    fsize := ldDword win 84
    volbase := bsect
    fatbase := (bsect + ldDword win 80) % 2 ^ 64
    dirbase := ldDword win 96
    database := database }

/-- The first cluster of the bitmap, by its entry in the first cluster of the root directory;
`n` sectors of that are left, from `so` on. -/
def findBitmap (d : Drive) (v : Volume) : Nat → Nat → Win → Except FResult Nat × Win
  | 0, _, w => (.error .noFilesystem, w)
  | n + 1, so, w =>
    match moveWindow d w ((clst2sect v v.dirbase + so) % 2 ^ 64) with
    | (.ok, w) =>
      match (List.range 16).find? fun i => w.win (32 * i) = 0x81 with
      | some i => (.ok (ldDword w.win (32 * i + 20)), w)
      | none => findBitmap d v n (so + 1) w
    | (_, w) => (.error .diskErr, w)

/-- The clusters of the bitmap follow each other in the FAT. The loop goes on to numbers below
2^32 only, and so has enough rounds with as many as are left to that. -/
def contiguous (d : Drive) (v : Volume) : Nat → Nat → Win → FResult × Win
  | 0, _, w => (.intErr, w)
  | rounds + 1, bcl, w =>
    match moveWindow d w ((v.fatbase + bcl / 128) % 2 ^ 64) with
    | (.ok, w) =>
      let cv := ldDword w.win (bcl % 128 * 4)
      if cv = 0xFFFFFFFF then (.ok, w)
      else if cv ≠ (bcl + 1) % 2 ^ 32 then (.noFilesystem, w)
      else contiguous d v rounds (bcl + 1) w
    | (_, w) => (.diskErr, w)

structure Mount where
  res : FResult
  fs : Option Volume
  w : Win

def mountBitmap (d : Drive) (fs : Volume) (w : Win) : Mount :=
  match findBitmap d fs fs.csize 0 w with
  | (.ok bcl, w) =>
    if bcl < 2 ∨ bcl ≥ fs.nFatent then ⟨.noFilesystem, none, w⟩
    else
      match contiguous d fs (2 ^ 32 - bcl) bcl w with
      | (.ok, w) =>
        let bitbase := (fs.database + fs.csize * (bcl - 2) % 2 ^ 32) % 2 ^ 64
        ⟨.ok, some { fs with bitbase := bitbase }, w⟩
      | (res, w) => ⟨res, none, w⟩
  | (.error res, w) => ⟨res, none, w⟩

/-- mount_volume of a drive that is not mounted yet. What the object held before stays in the
fields that the kind of the volume has no use for. -/
def mountVolume (d : Drive) (fs : Volume) (id : Nat) (w : Win) : Mount :=
  if d.initialized then
    match findVolume d w with
    | (.diskErr, w) => ⟨.diskErr, none, w⟩
    | (.exfat, w) =>
      match mountExfat w.win w.winsect id fs with
      | some fs => mountBitmap d fs w
      | none => ⟨.noFilesystem, none, w⟩
    | (.fat, w) =>
      match mountFat w.win w.winsect id fs with
      | some fs => ⟨.ok, some fs, w⟩
      | none => ⟨.noFilesystem, none, w⟩
    | (_, w) => ⟨.noFilesystem, none, w⟩
  else ⟨.notReady, none, w⟩

section Search

variable {d : Drive} {w : Win}

theorem diskRead_data {turn sector count : Nat} (read : (diskRead d turn sector count).1 = true) :
    (diskRead d turn sector count).2 = window d.bytes (512 * sector) (512 * count) := by
  unfold diskRead at read ⊢
  dsimp only at read ⊢
  split
  · rename_i few
    rw [if_pos few] at read
    cases fault : d.fault turn with
    | none =>
      rw [fault] at read
      dsimp only at read ⊢
      split
      · rfl
      · rename_i beyond
        rw [if_neg beyond] at read
        cases read
    | some n =>
      rw [fault] at read
      cases read
  · rename_i many
    rw [if_neg many] at read
    cases read

theorem moveWindow_valid (sect : Nat) (valid : w.Valid d) : (moveWindow d w sect).2.Valid d := by
  unfold moveWindow
  split
  · dsimp only
    split
    · rename_i read
      have shows := read_shows (d := d) w.win sect (w.reads + 1)
      rw [diskRead_data read]
      intro _
      exact shows
    · exact fun present => absurd rfl present
  · exact valid

def AtBoot (d : Drive) (r : BootSector × Win) : Prop :=
  r.2.Valid d ∧ (r.1 = .fat ∨ r.1 = .exfat → bootSector r.2.win = r.1)

theorem checkFs_atBoot (w : Win) (sect : Nat) : AtBoot d (checkFs d w sect) := by
  have invalid : Win.Valid { w with winsect := noSector } d := fun present => absurd rfl present
  have valid := moveWindow_valid sect invalid
  unfold checkFs
  generalize moveWindow d { w with winsect := noSector } sect = m at *
  obtain ⟨res, w'⟩ := m
  cases res with
  | ok => exact ⟨valid, fun _ => rfl⟩
  | _ => exact ⟨valid, nofun⟩

theorem findGpt_atBoot (ptLba n i : Nat) (valid : w.Valid d) :
    AtBoot d (findGpt d ptLba n i w) := by
  induction n generalizing w i with
  | zero => exact ⟨valid, nofun⟩
  | succ n ih =>
    have valid' := moveWindow_valid ((ptLba + i * 128 / 512) % 2 ^ 64) valid
    unfold findGpt
    generalize moveWindow d w ((ptLba + i * 128 / 512) % 2 ^ 64) = m at *
    obtain ⟨res, w'⟩ := m
    cases res with
    | ok =>
      have checked := checkFs_atBoot (d := d) w' (ldQword w'.win (i * 128 % 512 + 32))
      dsimp only
      split
      · split
        · exact checked
        · exact ih (i + 1) checked.1
      · exact ih (i + 1) valid'
    | _ => exact ⟨valid', nofun⟩

theorem findMbr_atBoot (mbrPt : List Nat) (valid : w.Valid d) :
    AtBoot d (findMbr d mbrPt w) := by
  induction mbrPt generalizing w with
  | nil => exact ⟨valid, nofun⟩
  | cons lba mbrPt ih =>
    have one : AtBoot d (if lba ≠ 0 then checkFs d w lba else (.invalid, w)) := by
      split
      · exact checkFs_atBoot w lba
      · exact ⟨valid, nofun⟩
    unfold findMbr
    generalize (if lba ≠ 0 then checkFs d w lba else (.invalid, w)) = r at *
    dsimp only
    split
    · exact one
    · exact ih one.1

theorem findVolume_atBoot (w : Win) : AtBoot d (findVolume d w) := by
  have first := checkFs_atBoot (d := d) w 0
  unfold findVolume
  generalize checkFs d w 0 = r at *
  obtain ⟨found, w'⟩ := r
  cases found with
  | notFat =>
    dsimp only
    split
    · have valid := moveWindow_valid 1 first.1
      generalize moveWindow d w' 1 = m at *
      obtain ⟨res, w''⟩ := m
      cases res with
      | ok =>
        dsimp only
        split
        · exact findGpt_atBoot _ _ 0 valid
        · exact ⟨valid, nofun⟩
      | _ => exact ⟨valid, nofun⟩
    · exact findMbr_atBoot _ first.1
  | _ => exact first

end Search

end MultiZone.Fat
