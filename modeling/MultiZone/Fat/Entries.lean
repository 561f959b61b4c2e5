import MultiZone.Fat.Model

/-! The FAT is read through the window one sector at a time, and is an array of 12, 16 or
32 bits wide numbers all the same, of which some lie across two sectors. -/
namespace MultiZone.Fat
open Memory

def entry (d : Drive) (v : Volume) (obj : Obj) (clst : Nat) : Nat :=
  let fat := 512 * v.fatbase
  match v.fsType with
  | .fat12 =>
    let pair := number (window d.bytes (fat + (clst + clst / 2)) 2)
    if clst % 2 = 1 then pair / 16 else pair % 4096
  | .fat16 => number (window d.bytes (fat + 2 * clst) 2)
  | .fat32 => number (window d.bytes (fat + 4 * clst) 4) % 2 ^ 28
  | .exfat =>
    if obj.objsize ≠ 0 ∧ obj.sclust ≠ 0 ∨ obj.stat = 0 then
      let cofs := (clst + (2 ^ 32 - obj.sclust)) % 2 ^ 32
      let clen := (obj.objsize + (2 ^ 64 - 1)) % 2 ^ 64 / 512 / v.csize % 2 ^ 32
      if obj.stat = 2 ∧ cofs ≤ clen then if cofs = clen then 0x7FFFFFFF else clst + 1
      else if obj.stat = 3 ∧ cofs < obj.nCont then clst + 1
      else if obj.stat ≠ 2 then
        if obj.nFrag ≠ 0 then 0x7FFFFFFF else number (window d.bytes (fat + 4 * clst) 4) % 2 ^ 31
      else 1
    else 1
  | .unmounted => 1

/-- The bytes of the FAT that are in use. -/
def fatBytes : FsType → Nat → Nat
  | .fat12, n => n * 3 / 2 + n % 2
  | .fat16, n => n * 2
  | .fat32, n => n * 4
  | .exfat, n => n * 4
  | .unmounted, _ => 0

structure Volume.Sound (v : Volume) : Prop where
  csize_pow : ∃ k ≤ 15, v.csize = 2 ^ k
  database_pos : 0 < v.database
  nFatent_le : v.nFatent ≤ 0x7FFFFFFF
  fatRoom : fatBytes v.fsType v.nFatent ≤ 512 * v.fsize

/-- The FAT and the clusters lie on the card, whose sectors can be numbered. -/
structure Fits (d : Drive) (v : Volume) : Prop where
  numbered : d.sectors ≤ noSector
  fat : v.fatbase + v.fsize ≤ d.sectors
  data : v.database + v.csize * (v.nFatent - 2) ≤ d.sectors

def Faulty (d : Drive) : Prop := ∃ turn, d.fault turn ≠ none

def Win.Shows (w : Win) (d : Drive) (sect : Nat) : Prop :=
  ∀ o < 512, w.win o = d.bytes (512 * sect + o)

def Win.Valid (w : Win) (d : Drive) : Prop := w.winsect ≠ noSector → w.Shows d w.winsect

section Reading

variable {d : Drive} {v : Volume} {obj : Obj} {w : Win}

theorem diskRead_cases (turn : Nat) {sector count : Nat} (few : count ≤ mmcBlockCountMax)
    (inside : sector + count ≤ d.sectors) :
    diskRead d turn sector count = (true, window d.bytes (512 * sector) (512 * count)) ∨
      ∃ n, diskRead d turn sector count =
        (false, (window d.bytes (512 * sector) (512 * count)).take n) ∧ Faulty d := by
  unfold diskRead
  rw [if_pos few]
  dsimp only
  cases fault : d.fault turn with
  | none => exact .inl (if_pos inside)
  | some n => exact .inr ⟨n, rfl, turn, by rw [fault]; exact Option.some_ne_none n⟩

theorem store_window (mem : Nat → Byte) (a n : Nat) {o : Nat} (inside : o < n) :
    store mem 0 (window d.bytes a n) o = d.bytes (a + o) := by
  have stored : store mem 0 (window d.bytes a n) (0 + o) = d.bytes (a + o) :=
    store_inside (window_get d.bytes inside)
  rwa [Nat.zero_add] at stored

theorem read_shows (mem : Nat → Byte) (sect reads : Nat) :
    Win.Shows ⟨sect, store mem 0 (window d.bytes (512 * sect) (512 * 1)), reads⟩ d sect := by
  intro o ho
  dsimp only
  apply store_window
  exact ho

theorem moveWindow_spec {sect : Nat} (valid : w.Valid d) (inside : sect < d.sectors)
    (numbered : d.sectors ≤ noSector) :
    (moveWindow d w sect).2.Valid d ∧
      ((moveWindow d w sect).1 = .ok ∧ (moveWindow d w sect).2.Shows d sect ∨
        (moveWindow d w sect).1 = .diskErr ∧ Faulty d) := by
  unfold moveWindow
  split
  · rcases diskRead_cases (d := d) w.reads (by decide : 1 ≤ _) inside with
      read | ⟨n, read, faulty⟩
    · have shows := read_shows (d := d) w.win sect (w.reads + 1)
      simp only [read, if_true]
      exact ⟨fun _ => shows, .inl ⟨trivial, shows⟩⟩
    · simp only [read, Bool.false_eq_true, if_false]
      exact ⟨fun changed => absurd rfl changed, .inr ⟨trivial, faulty⟩⟩
  · rename_i same
    obtain rfl := Decidable.not_not.mp same
    have present := Nat.ne_of_lt (Nat.lt_of_lt_of_le inside numbered)
    exact ⟨valid, .inl ⟨rfl, valid present⟩⟩

theorem Win.Shows.window_eq {sect o n : Nat} (shows : w.Shows d sect) (inside : o + n ≤ 512) :
    window w.win o n = window d.bytes (512 * sect + o) n := by
  apply List.map_congr_left
  intro i hi
  have short := List.mem_range.mp hi
  rw [shows (o + i) (by omega), Nat.add_assoc]

theorem Win.Shows.entry_eq {p : Nat} {n : Nat} (shows : w.Shows d (v.fatbase + p / 512))
    (inside : p % 512 + n ≤ 512) :
    window w.win (p % 512) n = window d.bytes (512 * v.fatbase + p) n := by
  rw [shows.window_eq inside]
  congr 1
  omega

theorem Win.Shows.byte_eq {p : Nat} (shows : w.Shows d (v.fatbase + p / 512)) :
    w.win (p % 512) = d.bytes (512 * v.fatbase + p) := by
  rw [shows (p % 512) (Nat.mod_lt p (by decide))]
  congr 1
  omega

theorem number_lt (bytes : List Byte) : number bytes < 256 ^ bytes.length := by
  induction bytes with
  | nil => exact Nat.zero_lt_one
  | cons b bytes ih =>
    have small := b.toNat_lt
    rw [number, List.length_cons, Nat.pow_succ]
    omega

theorem number_pair (mem : Nat → Byte) (a : Nat) :
    number (window mem a 2) = (mem a).toNat ||| (mem (a + 1)).toNat <<< 8 := by
  have low : (mem a).toNat < 2 ^ 8 := (mem a).toNat_lt
  rw [Nat.or_comm, ← Nat.shiftLeft_add_eq_or_of_lt low, Nat.shiftLeft_eq]
  simp only [window, List.range_succ, List.range_zero, List.nil_append, List.map_cons,
    List.map_nil, List.cons_append, number, Nat.add_zero]
  omega

theorem twelve_bits (pair clst : Nat) :
    (if clst &&& 1 = 1 then pair >>> 4 else pair &&& 0xFFF) =
      if clst % 2 = 1 then pair / 16 else pair % 4096 := by
  rw [Nat.and_one_is_mod, Nat.shiftRight_eq_div_pow,
    show 0xFFF = 2 ^ 12 - 1 from rfl, Nat.and_two_pow_sub_one_eq_mod]

/-- What a function of get_fat gives when it looks at one sector of the window. -/
def Found (d : Drive) (value : Nat) (r : Nat × Win) : Prop :=
  r.2.Valid d ∧ (r.1 = value ∨ r.1 = 0xFFFFFFFF ∧ Faulty d)

theorem found_in_sector {sect value : Nat} {look : Win → Nat} (valid : w.Valid d)
    (inside : sect < d.sectors) (numbered : d.sectors ≤ noSector)
    (seen : ∀ w : Win, w.Shows d sect → look w = value) :
    Found d value (match moveWindow d w sect with
      | (.ok, w) => (look w, w)
      | (_, w) => (0xFFFFFFFF, w)) := by
  obtain ⟨valid', ⟨ok, shows⟩ | ⟨failed, faulty⟩⟩ := moveWindow_spec valid inside numbered
  · generalize moveWindow d w sect = m at *
    obtain ⟨res, w'⟩ := m
    cases ok
    exact ⟨valid', .inl (seen w' shows)⟩
  · generalize moveWindow d w sect = m at *
    obtain ⟨res, w'⟩ := m
    cases failed
    exact ⟨valid', .inr ⟨rfl, faulty⟩⟩

theorem getFat_found (obj : Obj) (sound : v.Sound) (fits : Fits d v) (valid : w.Valid d) {clst : Nat}
    (low : 2 ≤ clst) (high : clst < v.nFatent) :
    Found d (entry d v obj clst) (getFat d v obj w clst) := by
  have room := sound.fatRoom
  have fat := fits.fat
  unfold getFat entry
  rw [if_neg (by omega)]
  cases kind : v.fsType with
  | unmounted => exact ⟨valid, .inl rfl⟩
  | fat16 =>
    simp only [kind, fatBytes] at room
    apply found_in_sector valid (by omega) fits.numbered
    intro w' shows
    have half : clst / 256 = clst * 2 / 512 := by omega
    rw [half] at shows
    rw [ldWord, shows.entry_eq (by omega), Nat.mul_comm clst 2]
  | fat32 =>
    simp only [kind, fatBytes] at room
    apply found_in_sector valid (by omega) fits.numbered
    intro w' shows
    have quarter : clst / 128 = clst * 4 / 512 := by omega
    rw [quarter] at shows
    rw [ldDword, shows.entry_eq (by omega), Nat.mul_comm clst 4,
      show 0x0FFFFFFF = 2 ^ 28 - 1 from rfl, Nat.and_two_pow_sub_one_eq_mod]
  | exfat =>
    simp only [kind, fatBytes] at room
    dsimp only
    split
    · split
      · exact ⟨valid, .inl rfl⟩
      · split
        · exact ⟨valid, .inl rfl⟩
        · split
          · split
            · exact ⟨valid, .inl rfl⟩
            · apply found_in_sector valid (by omega) fits.numbered
              intro w' shows
              have quarter : clst / 128 = clst * 4 / 512 := by omega
              rw [quarter] at shows
              rw [ldDword, shows.entry_eq (by omega), Nat.mul_comm clst 4,
                show 0x7FFFFFFF = 2 ^ 31 - 1 from rfl, Nat.and_two_pow_sub_one_eq_mod]
          · exact ⟨valid, .inl rfl⟩
    · exact ⟨valid, .inl rfl⟩
  | fat12 =>
    simp only [kind, fatBytes] at room
    dsimp only
    have inside : v.fatbase + (clst + clst / 2) / 512 < d.sectors := by omega
    obtain ⟨valid', ⟨ok, shows⟩ | ⟨failed, faulty⟩⟩ := moveWindow_spec valid inside fits.numbered
    · generalize moveWindow d w (v.fatbase + (clst + clst / 2) / 512) = m at *
      obtain ⟨res, w'⟩ := m
      cases ok
      apply found_in_sector valid' (by omega) fits.numbered
      intro w'' shows'
      have first := shows.byte_eq
      have second := shows'.byte_eq
      rw [twelve_bits, number_pair, first, second, Nat.add_assoc (512 * v.fatbase)]
    · generalize moveWindow d w (v.fatbase + (clst + clst / 2) / 512) = m at *
      obtain ⟨res, w'⟩ := m
      cases failed
      exact ⟨valid', .inr ⟨rfl, faulty⟩⟩

end Reading

section Floppy

theorem floppy_sound : floppyVolume.Sound :=
  ⟨⟨0, by decide, rfl⟩, by decide, by decide, by decide⟩

theorem floppy_fits (fault : Nat → Option Nat) : Fits (floppy fault) floppyVolume :=
  ⟨by change 128 ≤ 2 ^ 64 - 1; decide, by change 1 + 1 ≤ 128; decide,
    by change 3 + 1 * 125 ≤ 128; decide⟩

theorem emptyWin_valid (d : Drive) : emptyWin.Valid d := fun present => absurd rfl present

theorem floppy_healthy : ¬ Faulty (floppy fun _ => none) := fun ⟨_, fault⟩ => fault rfl

end Floppy

end MultiZone.Fat
