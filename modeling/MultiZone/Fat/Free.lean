import MultiZone.Fat.Entries

/-! f_getfree goes over the FAT, or over the bitmap of an exFAT volume, to count the clusters
that are free. -/
namespace MultiZone.Fat
open Memory

structure Scan where
  res : FResult
  nfree : Nat
  w : Win

/-- From cluster `clst` on, with `n` of them left. -/
def scanFat12 (d : Drive) (v : Volume) (obj : Obj) : Nat → Win → Nat → Nat → Scan
  | 0, w, _, nfree => ⟨.ok, nfree, w⟩
  | n + 1, w, clst, nfree =>
    let (stat, w) := getFat d v obj w clst
    if stat = 0xFFFFFFFF then ⟨.diskErr, nfree, w⟩
    else if stat = 1 then ⟨.intErr, nfree, w⟩
    else scanFat12 d v obj n w (clst + 1) (if stat = 0 then nfree + 1 else nfree)

/-- Up to `b` bits of a byte, with `clst` clusters left: how many are left then, and the count. -/
def countByte : Nat → Nat → Nat → Nat → Nat × Nat
  | 0, clst, _, nfree => (clst, nfree)
  | b + 1, clst, bm, nfree =>
    if clst ≠ 0 then
      countByte b (clst - 1) (bm >>> 1) (if bm &&& 1 = 0 then nfree + 1 else nfree)
    else (clst, nfree)

/-- The window at the next sector where the offset `i` in it is 0. -/
def nextSector (d : Drive) (w : Win) (sect i : Nat) : FResult × Win :=
  if i = 0 then moveWindow d w sect else (.ok, w)

def scanBitmap (d : Drive) : Nat → Win → Nat → Nat → Nat → Nat → Scan
  | 0, w, _, _, _, nfree => ⟨.ok, nfree, w⟩
  | rounds + 1, w, sect, i, clst, nfree =>
    match nextSector d w sect i with
    | (.ok, w) =>
      let (clst, nfree) := countByte 8 clst (w.win i).toNat nfree
      if clst ≠ 0 then
        scanBitmap d rounds w (if i = 0 then sect + 1 else sect) ((i + 1) % 512) clst nfree
      else ⟨.ok, nfree, w⟩
    | (res, w) => ⟨res, nfree, w⟩

def scanFat (d : Drive) (v : Volume) : Nat → Win → Nat → Nat → Nat → Scan
  | 0, w, _, _, nfree => ⟨.ok, nfree, w⟩
  | clst + 1, w, sect, i, nfree =>
    match nextSector d w sect i with
    | (.ok, w) =>
      let sect := if i = 0 then sect + 1 else sect
      if v.fsType = .fat16 then
        scanFat d v clst w sect ((i + 2) % 512) (if ldWord w.win i = 0 then nfree + 1 else nfree)
      else
        scanFat d v clst w sect ((i + 4) % 512)
          (if ldDword w.win i &&& 0x0FFFFFFF = 0 then nfree + 1 else nfree)
    | (res, w) => ⟨res, nfree, w⟩

/-- f_getfree of a volume that is mounted; the object is not initialised. -/
def fGetfree (d : Drive) (v : Volume) (obj : Obj) (w : Win) : Scan :=
  if v.fsType = .fat12 then scanFat12 d v obj (v.nFatent - 2) w 2 0
  else if v.fsType = .exfat then scanBitmap d (v.nFatent - 2 + 1) w v.bitbase 0 (v.nFatent - 2) 0
  else scanFat d v v.nFatent w v.fatbase 0 0

/-- A bit of the bitmap, which stands for a cluster that is in use where it is set. -/
def bitmap (d : Drive) (v : Volume) (j : Nat) : Bool :=
  (d.bytes (512 * v.bitbase + j / 8)).toNat.testBit (j % 8)

def Free (d : Drive) (v : Volume) (obj : Obj) (clst : Nat) : Prop :=
  if v.fsType = .exfat then bitmap d v (clst - 2) = false else entry d v obj clst = 0

instance (d : Drive) (v : Volume) (obj : Obj) (clst : Nat) : Decidable (Free d v obj clst) :=
  inferInstanceAs (Decidable (if v.fsType = .exfat then _ = false else _ = 0))

def freeClusters (d : Drive) (v : Volume) (obj : Obj) : Nat :=
  (List.range' 2 (v.nFatent - 2)).countP fun clst => Free d v obj clst

section Scans

variable {d : Drive} {v : Volume} {obj : Obj} {w : Win}

/-- What a scan that has counted `value` leaves, unless the card fails. -/
def Scan.Counts (d : Drive) (value : Nat) (r : Scan) : Prop :=
  r.w.Valid d ∧ (r.res = .ok ∧ r.nfree = value ∨ r.res = .diskErr ∧ Faulty d)

theorem nextSector_spec {sect i p : Nat} (valid : w.Valid d)
    (place : sect = (p + 511) / 512) (offset : i = p % 512) (inside : p / 512 < d.sectors)
    (numbered : d.sectors ≤ noSector) (shows : i ≠ 0 → w.Shows d (p / 512)) :
    (nextSector d w sect i).2.Valid d ∧
      ((nextSector d w sect i).1 = .ok ∧ (nextSector d w sect i).2.Shows d (p / 512) ∨
        (nextSector d w sect i).1 = .diskErr ∧ Faulty d) := by
  unfold nextSector
  split
  · have start : sect = p / 512 := by omega
    rw [start]
    exact moveWindow_spec valid inside numbered
  · rename_i within
    exact ⟨valid, .inl ⟨rfl, shows within⟩⟩

theorem next_place {sect i p s : Nat} (size : s = 1 ∨ s = 2 ∨ s = 4) (aligned : p % s = 0)
    (place : sect = (p + 511) / 512) (offset : i = p % 512) :
    (if i = 0 then sect + 1 else sect) = (p + s + 511) / 512 ∧ (i + s) % 512 = (p + s) % 512 ∧
      i + s ≤ 512 ∧ ((i + s) % 512 ≠ 0 → (p + s) / 512 = p / 512) := by
  have behind : (if i = 0 then sect + 1 else sect) = (p + s + 511) / 512 := by
    rcases size with rfl | rfl | rfl <;> split <;> omega
  refine ⟨behind, ?_, ?_, ?_⟩
  all_goals rcases size with rfl | rfl | rfl <;> omega

theorem count_succ (p : Nat → Bool) (nfree k n : Nat) :
    (if p k then nfree + 1 else nfree) + (List.range' (k + 1) n).countP p =
      nfree + (List.range' k (n + 1)).countP p := by
  rw [List.range'_succ, List.countP_cons]
  split <;> omega

theorem scanFat_counts (obj : Obj) (fits : Fits d v) {s clst k sect i : Nat} (nfree : Nat)
    (kind : v.fsType = .fat16 ∧ s = 2 ∨ v.fsType = .fat32 ∧ s = 4) (valid : w.Valid d)
    (room : s * (k + clst) ≤ 512 * v.fsize)
    (place : sect = (512 * v.fatbase + s * k + 511) / 512)
    (offset : i = (512 * v.fatbase + s * k) % 512)
    (shows : i ≠ 0 → w.Shows d ((512 * v.fatbase + s * k) / 512)) :
    (scanFat d v clst w sect i nfree).Counts d
      (nfree + (List.range' k clst).countP fun c => entry d v obj c = 0) := by
  induction clst generalizing w k nfree sect i with
  | zero => exact ⟨valid, .inl ⟨rfl, rfl⟩⟩
  | succ clst ih =>
    have fat := fits.fat
    have size : s = 1 ∨ s = 2 ∨ s = 4 := by omega
    have aligned : (512 * v.fatbase + s * k) % s = 0 := by
      rcases size with rfl | rfl | rfl <;> omega
    have later : 512 * v.fatbase + s * (k + 1) = 512 * v.fatbase + s * k + s := by
      rw [Nat.mul_succ, Nat.add_assoc]
    have step : s * (k + (clst + 1)) = s * k + s * clst + s := by
      rw [Nat.mul_add, Nat.mul_succ, Nat.add_assoc]
    have room' : s * (k + 1 + clst) ≤ 512 * v.fsize := by
      rw [Nat.add_assoc, Nat.add_comm 1 clst]
      exact room
    obtain ⟨place', offset', within, same⟩ := next_place size aligned place offset
    have inside : (512 * v.fatbase + s * k) / 512 < d.sectors := by omega
    obtain ⟨valid', ⟨ok, shows'⟩ | ⟨failed, faulty⟩⟩ :=
      nextSector_spec valid place offset inside fits.numbered shows
    · unfold scanFat
      generalize nextSector d w sect i = m at *
      obtain ⟨res, w'⟩ := m
      cases ok
      have bytes := shows'.window_eq within
      have here : 512 * ((512 * v.fatbase + s * k) / 512) + i = 512 * v.fatbase + s * k := by omega
      rw [here] at bytes
      have rest := fun n => ih n (w := w') valid' room' (later ▸ place')
        (later ▸ offset') (fun unfinished => by rw [later, same unfinished]; exact shows')
      dsimp only
      rw [← count_succ]
      rcases kind with ⟨kind, rfl⟩ | ⟨kind, rfl⟩
      · rw [if_pos kind, ldWord, bytes]
        simpa only [entry, kind, decide_eq_true_eq] using rest _
      · have other : v.fsType ≠ .fat16 := by
          rw [kind]
          decide
        rw [if_neg other, ldDword, bytes, show 0x0FFFFFFF = 2 ^ 28 - 1 from rfl,
          Nat.and_two_pow_sub_one_eq_mod]
        simpa only [entry, kind, decide_eq_true_eq] using rest _
    · unfold scanFat
      generalize nextSector d w sect i = m at *
      obtain ⟨res, w'⟩ := m
      cases failed
      exact ⟨valid', .inr ⟨rfl, faulty⟩⟩

theorem entry12_lt (d : Drive) (obj : Obj) (kind : v.fsType = .fat12) (clst : Nat) :
    entry d v obj clst < 4096 := by
  have pair := number_lt (window d.bytes (512 * v.fatbase + (clst + clst / 2)) 2)
  rw [window_length] at pair
  simp only [entry, kind]
  split <;> omega

theorem scanFat12_counts (obj : Obj) (sound : v.Sound) (fits : Fits d v) (kind : v.fsType = .fat12)
    {n : Nat} (clst nfree : Nat) (valid : w.Valid d) (low : 2 ≤ clst)
    (high : clst + n ≤ v.nFatent) :
    let r := scanFat12 d v obj n w clst nfree
    r.Counts d (nfree + (List.range' clst n).countP fun c => entry d v obj c = 0) ∨
      r.w.Valid d ∧ r.res = .intErr ∧ ∃ c, 2 ≤ c ∧ c < v.nFatent ∧ entry d v obj c = 1 := by
  induction n generalizing w clst nfree with
  | zero => exact .inl ⟨valid, .inl ⟨rfl, rfl⟩⟩
  | succ n ih =>
    have small := entry12_lt d obj kind clst
    obtain ⟨valid', found⟩ := getFat_found obj sound fits valid low (by omega)
    unfold scanFat12
    generalize getFat d v obj w clst = r at *
    obtain ⟨stat, w'⟩ := r
    dsimp only at valid' found ⊢
    rcases found with rfl | ⟨rfl, faulty⟩
    · rw [if_neg (by omega)]
      split
      · rename_i one
        exact .inr ⟨valid', rfl, clst, low, by omega, one⟩
      · have rest := ih (clst + 1) (if entry d v obj clst = 0 then nfree + 1 else nfree) valid'
          (by omega) (by omega)
        rw [← count_succ]
        simpa only [decide_eq_true_eq] using rest
    · exact .inl ⟨valid', .inr ⟨rfl, faulty⟩⟩

theorem countByte_eq {f : Nat → Bool} {x a b : Nat} (clst t nfree : Nat)
    (bits : ∀ u, t ≤ u → u < t + b → f (a + u) = !x.testBit u) :
    countByte b clst (x >>> t) nfree =
      (clst - b, nfree + (List.range' (a + t) (min b clst)).countP f) := by
  induction b generalizing clst t nfree with
  | zero =>
    rw [Nat.zero_min]
    rfl
  | succ b ih =>
    unfold countByte
    split
    · rename_i left
      have here : f (a + t) = !x.testBit t := bits t (Nat.le_refl t) (by omega)
      have set : (x >>> t &&& 1 = 0) = (f (a + t) = true) := by
        rw [here, Nat.testBit, Nat.and_comm 1]
        simp
      have rest := fun n => ih (clst - 1) (t + 1) n
        fun u after before => bits u (by omega) (by omega)
      rw [← Nat.shiftRight_add, rest, ← Nat.add_assoc]
      simp only [set]
      rw [count_succ, Nat.sub_sub, Nat.add_comm 1 b,
        show min b (clst - 1) + 1 = min (b + 1) clst by omega]
    · rename_i none'
      obtain rfl := Decidable.not_not.mp none'
      rw [Nat.min_zero, Nat.zero_sub]
      rfl

theorem scanBitmap_counts {rounds j sect i : Nat} (clst nfree : Nat) (valid : w.Valid d)
    (numbered : d.sectors ≤ noSector) (some' : 0 < clst) (enough : clst ≤ rounds)
    (room : 512 * v.bitbase + (8 * j + clst + 7) / 8 ≤ 512 * d.sectors)
    (place : sect = (512 * v.bitbase + j + 511) / 512)
    (offset : i = (512 * v.bitbase + j) % 512)
    (shows : i ≠ 0 → w.Shows d ((512 * v.bitbase + j) / 512)) :
    (scanBitmap d rounds w sect i clst nfree).Counts d
      (nfree + (List.range' (8 * j) clst).countP fun k => bitmap d v k = false) := by
  induction rounds generalizing w clst j sect i nfree with
  | zero => omega
  | succ rounds ih =>
    obtain ⟨place', offset', within, same⟩ := next_place (.inl rfl) (Nat.mod_one _) place offset
    have inside : (512 * v.bitbase + j) / 512 < d.sectors := by omega
    obtain ⟨valid', ⟨ok, shows'⟩ | ⟨failed, faulty⟩⟩ :=
      nextSector_spec valid place offset inside numbered shows
    · unfold scanBitmap
      generalize nextSector d w sect i = m at *
      obtain ⟨res, w'⟩ := m
      cases ok
      have byte : w'.win i = d.bytes (512 * v.bitbase + j) := by
        rw [shows' i (by omega)]
        congr 1
        omega
      have bits : ∀ u, 0 ≤ u → u < 0 + 8 → decide (bitmap d v (8 * j + u) = false) =
          !(w'.win i).toNat.testBit u := by
        intro u _ short
        rw [byte, bitmap, show (8 * j + u) / 8 = j by omega, show (8 * j + u) % 8 = u by omega]
        cases (d.bytes (512 * v.bitbase + j)).toNat.testBit u <;> rfl
      have counted := countByte_eq (f := fun k => bitmap d v k = false) clst 0 nfree bits
      rw [Nat.shiftRight_zero, Nat.add_zero] at counted
      dsimp only
      rw [counted]
      dsimp only
      split
      · rename_i more
        have rest := ih (clst - 8) (nfree + (List.range' (8 * j) (min 8 clst)).countP
          fun k => bitmap d v k = false) (j := j + 1) valid' (by omega) (by omega) (by omega)
          place' offset' (fun unfinished => by rw [← Nat.add_assoc, same unfinished]; exact shows')
        rw [Nat.min_eq_left (by omega)] at rest ⊢
        rw [Nat.add_assoc, ← List.countP_append, Nat.mul_succ, List.range'_append_1] at rest
        rwa [show 8 + (clst - 8) = clst by omega] at rest
      · rw [Nat.min_eq_right (by omega)]
        exact ⟨valid', .inl ⟨rfl, rfl⟩⟩
    · unfold scanBitmap
      generalize nextSector d w sect i = m at *
      obtain ⟨res, w'⟩ := m
      cases failed
      exact ⟨valid', .inr ⟨rfl, faulty⟩⟩

theorem freeClusters_bitmap (kind : v.fsType = .exfat) : freeClusters d v obj =
    (List.range' 0 (v.nFatent - 2)).countP fun k => bitmap d v k = false := by
  have shifted := List.map_add_range' (a := 2) 0 (v.nFatent - 2) 1
  rw [freeClusters, ← shifted, List.countP_map]
  apply List.countP_congr
  intro k _
  simp only [Function.comp, Free, kind, if_true, Nat.add_sub_cancel_left]

/-- The two entries in front of the clusters, as far as they are zero. -/
def frontZeros (d : Drive) (v : Volume) (obj : Obj) : Nat :=
  if v.fsType = .fat16 ∨ v.fsType = .fat32 then [0, 1].countP fun c => entry d v obj c = 0 else 0

theorem entries_zero (kind : v.fsType = .fat16 ∨ v.fsType = .fat32) (clusters : 2 < v.nFatent) :
    ((List.range' 0 v.nFatent).countP fun c => entry d v obj c = 0) =
      freeClusters d v obj + frontZeros d v obj := by
  have other : v.fsType ≠ .exfat := by
    rcases kind with kind | kind <;> rw [kind] <;> decide
  have whole : List.range' 0 v.nFatent = [0, 1] ++ List.range' 2 (v.nFatent - 2) := by
    obtain ⟨n, entries⟩ : ∃ n, v.nFatent = n + 1 + 1 := ⟨v.nFatent - 2, by omega⟩
    rw [entries]
    rfl
  rw [whole, List.countP_append, frontZeros, if_pos kind, freeClusters, Nat.add_comm]
  simp only [Free, other, if_false]

theorem scanFat_free (obj : Obj) (sound : v.Sound) (fits : Fits d v) (valid : w.Valid d)
    (clusters : 2 < v.nFatent) {s : Nat} (kind : v.fsType = .fat16 ∧ s = 2 ∨ v.fsType = .fat32 ∧ s = 4) :
    (scanFat d v v.nFatent w v.fatbase 0 0).Counts d (freeClusters d v obj + frontZeros d v obj) := by
  have room : s * (0 + v.nFatent) ≤ 512 * v.fsize := by
    have sized := sound.fatRoom
    rcases kind with ⟨kind, rfl⟩ | ⟨kind, rfl⟩ <;> rw [kind, fatBytes] at sized <;> omega
  have counts := scanFat_counts obj fits (k := 0) 0 kind valid room
    (by omega : v.fatbase = _) (by omega : 0 = _) (fun within => absurd rfl within)
  rwa [Nat.zero_add, entries_zero (kind.imp And.left And.left) clusters] at counts

theorem fGetfree_fat (obj : Obj) (sound : v.Sound) (fits : Fits d v) (valid : w.Valid d)
    (clusters : 2 < v.nFatent)
    (known : v.fsType = .fat12 ∨ v.fsType = .fat16 ∨ v.fsType = .fat32) :
    let r := fGetfree d v obj w
    r.w.Valid d ∧ (r.res = .ok ∧ r.nfree = freeClusters d v obj + frontZeros d v obj ∨
      r.res = .diskErr ∧ Faulty d ∨
      r.res = .intErr ∧ v.fsType = .fat12 ∧ ∃ c, 2 ≤ c ∧ c < v.nFatent ∧ entry d v obj c = 1) := by
  intro r
  rcases known with kind | kind | kind
  · have free : freeClusters d v obj + frontZeros d v obj =
        (List.range' 2 (v.nFatent - 2)).countP fun c => entry d v obj c = 0 := by
      simp [freeClusters, frontZeros, Free, kind]
    have same : r = scanFat12 d v obj (v.nFatent - 2) w 2 0 := if_pos kind
    have counts := scanFat12_counts obj sound fits kind 2 0 valid (Nat.le_refl 2)
      (by omega : 2 + (v.nFatent - 2) ≤ v.nFatent)
    rw [free, same]
    dsimp only at counts
    rw [Nat.zero_add] at counts
    rcases counts with ⟨valid', ok | failed⟩ | ⟨valid', unlinked⟩
    · exact ⟨valid', .inl ok⟩
    · exact ⟨valid', .inr (.inl failed)⟩
    · exact ⟨valid', .inr (.inr ⟨unlinked.1, kind, unlinked.2⟩)⟩
  all_goals
    have same : r = scanFat d v v.nFatent w v.fatbase 0 0 := by
      simp only [r, fGetfree, kind, reduceCtorEq, if_false]
    rw [same]
  · have counts := scanFat_free obj sound fits valid clusters (.inl ⟨kind, rfl⟩)
    exact ⟨counts.1, counts.2.imp_right .inl⟩
  · have counts := scanFat_free obj sound fits valid clusters (.inr ⟨kind, rfl⟩)
    exact ⟨counts.1, counts.2.imp_right .inl⟩

/-- f_getfree counts the free clusters, unless the card fails. A FAT12 volume it gives up where a
cluster is linked with number 1; of a FAT16 or FAT32 volume it counts the two entries in front as
well, where these are zero. -/
theorem fGetfree_counts (obj : Obj) (sound : v.Sound) (fits : Fits d v) (valid : w.Valid d)
    (clusters : 2 < v.nFatent)
    (bits : v.fsType = .exfat → 512 * v.bitbase + (v.nFatent - 2 + 7) / 8 ≤ 512 * d.sectors)
    (mounted : v.fsType ≠ .unmounted) :
    let r := fGetfree d v obj w
    r.w.Valid d ∧ (r.res = .ok ∧ r.nfree = freeClusters d v obj + frontZeros d v obj ∨
      r.res = .diskErr ∧ Faulty d ∨
      r.res = .intErr ∧ v.fsType = .fat12 ∧ ∃ c, 2 ≤ c ∧ c < v.nFatent ∧ entry d v obj c = 1) := by
  by_cases kind : v.fsType = .exfat
  · intro r
    have positive : 0 < v.nFatent - 2 := by omega
    have same : r = scanBitmap d (v.nFatent - 2 + 1) w v.bitbase 0 (v.nFatent - 2) 0 := by
      simp only [r, fGetfree, kind, reduceCtorEq, if_false, if_true]
    have counts := scanBitmap_counts (v := v) (j := 0) (v.nFatent - 2) 0 valid fits.numbered positive
      (Nat.le_succ _) (by have := bits kind; omega) (by omega : v.bitbase = _) (by omega : 0 = _)
      (fun within => absurd rfl within)
    have front : frontZeros d v obj = 0 := if_neg (by rw [kind]; decide)
    rw [same, front, Nat.add_zero, freeClusters_bitmap kind]
    rw [Nat.zero_add] at counts
    exact ⟨counts.1, counts.2.imp_right .inl⟩
  · apply fGetfree_fat obj sound fits valid clusters
    cases known : v.fsType with
    | fat12 | fat16 | fat32 => simp
    | exfat => exact absurd known kind
    | unmounted => exact absurd known mounted

theorem fGetfree_floppy :
    (fGetfree (floppy fun _ => none) floppyVolume floppyFile.obj emptyWin).res = .ok ∧
      (fGetfree (floppy fun _ => none) floppyVolume floppyFile.obj emptyWin).nfree =
        freeClusters (floppy fun _ => none) floppyVolume floppyFile.obj +
          frontZeros (floppy fun _ => none) floppyVolume floppyFile.obj := by
  have linked : ∀ c < 127, entry (floppy fun _ => none) floppyVolume floppyFile.obj c ≠ 1 := by
    decide +kernel
  rcases (fGetfree_counts floppyFile.obj floppy_sound (floppy_fits fun _ => none)
    (emptyWin_valid _) (by decide) (fun kind => by cases kind) (by decide)).2 with
    counted | ⟨-, faulty⟩ | ⟨-, -, c, -, high, one⟩
  · exact counted
  · exact absurd faulty floppy_healthy
  · exact absurd one (linked c high)

end Scans

end MultiZone.Fat
