import MultiZone.Fat.Names
import MultiZone.Fat.Reading

/-! The search of a directory on the card: the entries are read one after the other, from the root
directory of the volume or along the clusters of another. -/
namespace MultiZone.Fat
open Memory Transition

/-- DIR; `dir` is the place of the entry in the window. -/
structure Dir where
  obj : Obj
  attr : Nat
  dptr : Nat
  clust : Nat
  sect : Nat
  dir : Nat
  fn : List Byte
  nsflag : Nat

def maxDir (v : Volume) : Nat := if v.fsType = .exfat then 0x10000000 else 0x200000

/-- The clusters from `clst` on that are in front of the offset, `n` of them. -/
def sdiLoop (d : Drive) (v : Volume) (obj : Obj) : Nat → Win → Nat → FResult × Nat × Win
  | 0, w, clst => (.ok, clst, w)
  | n + 1, w, clst =>
    let r := getFat d v obj w clst
    if r.1 = 0xFFFFFFFF then (.diskErr, r.1, r.2)
    else if r.1 < 2 ∨ r.1 ≥ v.nFatent then (.intErr, r.1, r.2)
    else sdiLoop d v obj n r.2 r.1

def dirSdi (d : Drive) (v : Volume) (w : Win) (dp : Dir) (ofs : Nat) : FResult × Dir × Win :=
  if ofs ≥ maxDir v ∨ ofs % 32 ≠ 0 then (.intErr, dp, w)
  else
    let root := dp.obj.sclust = 0 ∧ (v.fsType = .fat32 ∨ v.fsType = .exfat)
    let clst := if root then v.dirbase % 2 ^ 32 else dp.obj.sclust
    let dp := { dp with
      dptr := ofs
      obj := if root then { dp.obj with stat := 0 } else dp.obj }
    if clst = 0 then
      if ofs / 32 ≥ v.nRootdir then (.intErr, dp, w)
      else if v.dirbase = 0 then (.intErr, { dp with sect := 0, clust := 0 }, w)
      else (.ok, { dp with sect := v.dirbase + ofs / 512, clust := 0, dir := ofs % 512 }, w)
    else
      let csz := v.csize * 512
      match sdiLoop d v dp.obj (ofs / csz) w clst with
      | (.ok, clst, w) =>
        let sect := clst2sect v clst
        if sect = 0 then (.intErr, { dp with sect := 0, clust := clst }, w)
        else (.ok, { dp with sect := sect + ofs % csz / 512, clust := clst, dir := ofs % csz % 512 }, w)
      | (res, _, w) => (res, dp, w)

def dirNext (d : Drive) (v : Volume) (w : Win) (dp : Dir) : FResult × Dir × Win :=
  let ofs := dp.dptr + 32
  let sect := if ofs ≥ maxDir v then 0 else dp.sect
  if sect = 0 then (.noFile, { dp with sect := 0 }, w)
  else if ofs % 512 = 0 then
    let sect := sect + 1
    if dp.clust = 0 then
      if ofs / 32 ≥ v.nRootdir then (.noFile, { dp with sect := 0 }, w)
      else (.ok, { dp with sect := sect, dptr := ofs, dir := ofs % 512 }, w)
    else if ofs / 512 &&& (v.csize - 1) = 0 then
      let r := getFat d v dp.obj w dp.clust
      if r.1 ≤ 1 then (.intErr, { dp with sect := sect }, r.2)
      else if r.1 = 0xFFFFFFFF then (.diskErr, { dp with sect := sect }, r.2)
      else if r.1 ≥ v.nFatent then (.noFile, { dp with sect := 0 }, r.2)
      else (.ok, { dp with
        clust := r.1
        sect := clst2sect v r.1
        dptr := ofs
        dir := ofs % 512 }, r.2)
    else (.ok, { dp with sect := sect, dptr := ofs, dir := ofs % 512 }, w)
  else (.ok, { dp with dptr := ofs, dir := ofs % 512 }, w)

def dirent (mem : Nat → Byte) (a : Nat) : Dirent := fun o => if o < 32 then mem (a + o) else 0

/-- The loop, with a number of rounds that is enough: no directory is followed further. -/
def findLoop (lfnbuf : Nat → Nat) (d : Drive) (v : Volume) :
    Nat → Win → Dir → Nat × Nat → FResult × Dir × Win
  | 0, w, dp, _ => (.noFile, dp, w)
  | rounds + 1, w, dp, seq =>
    match moveWindow d w dp.sect with
    | (.ok, w) =>
      let dir := dirent w.win dp.dir
      match look lfnbuf dp.fn dp.nsflag seq dir with
      | .stop => (.noFile, dp, w)
      | .found => (.ok, { dp with attr := dir.attr }, w)
      | .next seq =>
        match dirNext d v w { dp with attr := dir.attr } with
        | (.ok, dp, w) => findLoop lfnbuf d v rounds w dp seq
        | (res, dp, w) => (res, dp, w)
    | (res, w) => (res, dp, w)

/-- dir_find on a FAT volume. -/
def dirFind (lfnbuf : Nat → Nat) (d : Drive) (v : Volume) (w : Win) (dp : Dir) :
    FResult × Dir × Win :=
  match dirSdi d v w dp 0 with
  | (.ok, dp, w) => findLoop lfnbuf d v 65536 w dp (0xFF, 0xFF)
  | (res, dp, w) => (res, dp, w)

/-- Where the entries of a directory lie: in the root directory of a FAT12 or FAT16 volume, or in
clusters. -/
inductive Where where
  | fixed
  | linked (cs : List Nat)

def Where.count (v : Volume) : Where → Nat
  | fixed => v.nRootdir
  | linked cs => 16 * v.csize * cs.length

def Where.place (v : Volume) (i : Nat) : Where → Nat
  | fixed => 512 * v.dirbase + 32 * i
  | linked cs => Fat.place v cs (32 * i)

def Where.entries (d : Drive) (v : Volume) (t : Where) : List Dirent :=
  (List.range (min (t.count v) 65536)).map fun i => dirent d.bytes (t.place v i)

/-- The directory of the object lies there. -/
def Where.Lies (d : Drive) (v : Volume) (obj : Obj) : Where → Prop
  | fixed => obj.sclust = 0 ∧ v.fsType ≠ .fat32 ∧ 0 < v.dirbase ∧ 0 < v.nRootdir ∧
    v.nRootdir % 16 = 0 ∧ v.dirbase + v.nRootdir / 16 ≤ d.sectors
  | linked cs =>
    cs[0]? = some (if obj.sclust = 0 ∧ v.fsType = .fat32 then v.dirbase else obj.sclust) ∧
    (∀ c ∈ cs, 2 ≤ c ∧ c < v.nFatent) ∧
    (∀ i c c', cs[i]? = some c → cs[i + 1]? = some c' → entry d v obj c = c') ∧
    ∀ c, cs[cs.length - 1]? = some c → v.nFatent ≤ entry d v obj c

def Where.Cluster (v : Volume) (i clust : Nat) : Where → Prop
  | fixed => clust = 0
  | linked cs => cs[32 * i / (512 * v.csize)]? = some clust

structure Here (v : Volume) (t : Where) (i : Nat) (dp : Dir) : Prop where
  dptr : dp.dptr = 32 * i
  dir : dp.dir = 32 * i % 512
  sect : dp.sect = t.place v i / 512
  clust : t.Cluster v i dp.clust

section Places

variable {d : Drive} {v : Volume} {obj : Obj} {t : Where} {i : Nat}

theorem Where.place_mod (t : Where) : t.place v i % 512 = 32 * i % 512 := by
  cases t with
  | fixed => exact Nat.mul_add_mod 512 _ _
  | linked cs => exact Fat.place_mod

theorem entry_obj (kind : v.fsType ≠ .exfat) (obj obj' : Obj) (c : Nat) :
    entry d v obj c = entry d v obj' c := by
  unfold entry
  cases same : v.fsType with
  | exfat => exact absurd same kind
  | unmounted => rfl
  | fat12 => rfl
  | fat16 => rfl
  | fat32 => rfl

theorem entry_small (kind : v.fsType ≠ .exfat) (obj : Obj) (c : Nat) :
    entry d v obj c < 2 ^ 28 := by
  have pair := fun a => number_lt (window d.bytes a 2)
  unfold entry
  cases same : v.fsType with
  | exfat => exact absurd same kind
  | unmounted => exact (by decide : 1 < 2 ^ 28)
  | fat12 =>
    have few := pair (512 * v.fatbase + (c + c / 2))
    rw [window_length] at few
    dsimp only
    split <;> omega
  | fat16 =>
    have few := pair (512 * v.fatbase + 2 * c)
    rw [window_length] at few
    exact Nat.lt_trans few (by decide)
  | fat32 => exact Nat.mod_lt _ (by decide)

theorem Where.linked_cluster {cs : List Nat} (sound : v.Sound)
    (inside : i < (Where.linked cs).count v) : 32 * i / (512 * v.csize) < cs.length := by
  have csize := sound.csize_pos
  apply Nat.div_lt_of_lt_mul
  have less : 32 * i < 32 * (16 * v.csize * cs.length) :=
    Nat.mul_lt_mul_of_pos_left inside (by decide)
  have same : 512 * v.csize * cs.length = 32 * (16 * v.csize * cs.length) := by
    rw [Nat.mul_assoc, Nat.mul_assoc, ← Nat.mul_assoc 32]
  rw [same]
  exact less

theorem Where.Lies.inside (lies : t.Lies d v obj) (sound : v.Sound) (fits : Fits d v)
    (within : i < t.count v) : 0 < t.place v i / 512 ∧ t.place v i / 512 < d.sectors := by
  cases t with
  | fixed =>
    obtain ⟨-, -, some', -, whole, room⟩ := lies
    have within' : i < v.nRootdir := within
    change 0 < (512 * v.dirbase + 32 * i) / 512 ∧ (512 * v.dirbase + 32 * i) / 512 < d.sectors
    omega
  | linked cs =>
    obtain ⟨-, valid, -, -⟩ := lies
    have short := Where.linked_cluster sound within
    obtain ⟨low, high⟩ := valid _ (List.getElem_mem short)
    have data := fits.data
    have first := sound.database_pos
    have rest := Nat.mod_lt (32 * i) (Nat.mul_pos (by decide : 0 < 512) sound.csize_pos)
    have room : v.csize * (cs[32 * i / (512 * v.csize)] - 2) + v.csize ≤ v.csize * (v.nFatent - 2) := by
      rw [← Nat.mul_succ]
      exact Nat.mul_le_mul_left _ (by omega)
    change 0 < Fat.place v cs (32 * i) / 512 ∧ Fat.place v cs (32 * i) / 512 < d.sectors
    rw [Fat.place, List.getD_eq_getElem?_getD, List.getElem?_eq_getElem short, Option.getD_some]
    omega

end Places

section Steps

variable {d : Drive} {v : Volume} {t : Where} {i : Nat} {w : Win} {dp : Dir}

theorem Where.Lies.obj {obj obj' : Obj} (kind : v.fsType ≠ .exfat) (same : obj'.sclust = obj.sclust)
    (lies : t.Lies d v obj) : t.Lies d v obj' := by
  cases t with
  | fixed =>
    obtain ⟨root, rest⟩ := lies
    exact ⟨same.trans root, rest⟩
  | linked cs =>
    obtain ⟨first, valid, linked, last⟩ := lies
    refine ⟨same ▸ first, valid, fun i c c' one two => ?_, fun c one => ?_⟩
    · rw [entry_obj kind obj' obj]
      exact linked i c c' one two
    · rw [entry_obj kind obj' obj]
      exact last c one

theorem dirSdi_fixed (kind : v.fsType ≠ .exfat) (lies : Where.fixed.Lies d v dp.obj) :
    ∃ dp', dirSdi d v w dp 0 = (.ok, dp', w) ∧ Here v .fixed 0 dp' ∧ dp'.fn = dp.fn ∧
      dp'.nsflag = dp.nsflag ∧ dp'.obj.sclust = dp.obj.sclust := by
  obtain ⟨root, other, some', count, -⟩ := lies
  have first : ¬ (0 ≥ maxDir v ∨ 0 % 32 ≠ 0) := by
    rw [maxDir, if_neg kind]
    decide
  have static : ¬ (dp.obj.sclust = 0 ∧ (v.fsType = .fat32 ∨ v.fsType = .exfat)) := by
    rintro ⟨-, fat32 | exfat⟩
    · exact other fat32
    · exact kind exfat
  have within : ¬ 0 / 32 ≥ v.nRootdir := by omega
  unfold dirSdi
  rw [if_neg first]
  simp only [if_neg static, if_pos root, if_neg within, if_neg (Nat.ne_of_gt some')]
  refine ⟨_, rfl, ⟨rfl, rfl, ?_, rfl⟩, rfl, rfl, rfl⟩
  change v.dirbase + 0 / 512 = (512 * v.dirbase + 32 * 0) / 512
  omega

theorem dirSdi_linked {cs : List Nat} (kind : v.fsType ≠ .exfat) (sound : v.Sound)
    (lies : (Where.linked cs).Lies d v dp.obj) :
    ∃ dp', dirSdi d v w dp 0 = (.ok, dp', w) ∧ Here v (.linked cs) 0 dp' ∧ dp'.fn = dp.fn ∧
      dp'.nsflag = dp.nsflag ∧ dp'.obj.sclust = dp.obj.sclust := by
  obtain ⟨start, valid, -, -⟩ := lies
  obtain ⟨low, high⟩ := valid _ (List.mem_of_getElem? start)
  have few := sound.nFatent_le
  have first : ¬ (0 ≥ maxDir v ∨ 0 % 32 ≠ 0) := by
    rw [maxDir, if_neg kind]
    decide
  have root : (dp.obj.sclust = 0 ∧ (v.fsType = .fat32 ∨ v.fsType = .exfat)) ↔
      (dp.obj.sclust = 0 ∧ v.fsType = .fat32) := by
    rw [or_iff_left kind]
  have clst : (if dp.obj.sclust = 0 ∧ (v.fsType = .fat32 ∨ v.fsType = .exfat)
        then v.dirbase % 2 ^ 32 else dp.obj.sclust) =
      if dp.obj.sclust = 0 ∧ v.fsType = .fat32 then v.dirbase else dp.obj.sclust := by
    rw [if_congr root rfl rfl]
    split
    · rename_i both
      rw [if_pos both] at high
      exact Nat.mod_eq_of_lt (by omega)
    · rfl
  generalize (if dp.obj.sclust = 0 ∧ v.fsType = .fat32 then v.dirbase else dp.obj.sclust) = c at *
  have sector := sound.clst2sect_eq low high
  have present := sound.database_pos
  have some' : clst2sect v c ≠ 0 := by omega
  have begin' : Fat.place v cs (32 * 0) = 512 * clst2sect v c := by
    rw [Nat.mul_zero, ← Nat.mul_zero (512 * v.csize)]
    exact place_first sound start low high
  unfold dirSdi
  rw [if_neg first]
  simp only [clst, if_neg (Nat.ne_of_gt (Nat.lt_of_lt_of_le Nat.zero_lt_two low)), Nat.zero_div, sdiLoop,
    if_neg some', Nat.zero_mod, Nat.add_zero]
  refine ⟨_, rfl, ⟨rfl, rfl, ?_, ?_⟩, rfl, rfl, ?_⟩
  · change clst2sect v c = Fat.place v cs (32 * 0) / 512
    rw [begin', Nat.mul_div_cancel_left _ (by decide)]
  · change cs[32 * 0 / (512 * v.csize)]? = some c
    rw [Nat.mul_zero, Nat.zero_div]
    exact start
  · dsimp only
    split <;> rfl

theorem dirSdi_start (kind : v.fsType ≠ .exfat) (sound : v.Sound) (lies : t.Lies d v dp.obj) :
    ∃ dp', dirSdi d v w dp 0 = (.ok, dp', w) ∧ Here v t 0 dp' ∧ dp'.fn = dp.fn ∧
      dp'.nsflag = dp.nsflag ∧ dp'.obj.sclust = dp.obj.sclust := by
  cases t with
  | fixed => exact dirSdi_fixed kind lies
  | linked cs => exact dirSdi_linked kind sound lies

/-- What dir_next does: it goes on to the next entry, or there is none, or the card fails. -/
structure Stepped (d : Drive) (v : Volume) (t : Where) (i : Nat) (dp : Dir)
    (r : FResult × Dir × Win) : Prop where
  valid : r.2.2.Valid d
  result : (i < min (t.count v) 65536 ∧ r.1 = .ok ∧ Here v t i r.2.1 ∧ r.2.1.fn = dp.fn ∧
      r.2.1.nsflag = dp.nsflag ∧ r.2.1.obj = dp.obj) ∨
    (min (t.count v) 65536 ≤ i ∧ r.1 = .noFile) ∨ r.1 = .diskErr ∧ Faulty d

theorem dirNext_max (kind : v.fsType ≠ .exfat) (valid : w.Valid d) (here : Here v t i dp)
    (far : 65536 ≤ i + 1) : Stepped d v t (i + 1) dp (dirNext d v w dp) := by
  have beyond : dp.dptr + 32 ≥ maxDir v := by
    rw [maxDir, if_neg kind, here.dptr]
    omega
  unfold dirNext
  simp only [if_pos beyond, if_true]
  exact ⟨valid, .inr (.inl ⟨Nat.le_trans (Nat.min_le_right _ _) far, rfl⟩)⟩

theorem dirNext_fixed (kind : v.fsType ≠ .exfat)
    (lies : Where.fixed.Lies d v dp.obj) (valid : w.Valid d) (here : Here v .fixed i dp)
    (within : i < v.nRootdir) : Stepped d v .fixed (i + 1) dp (dirNext d v w dp) := by
  rcases Nat.lt_or_ge (i + 1) 65536 with near | far
  · obtain ⟨-, -, some', -, whole, -⟩ := lies
    have here' := here.sect
    have base : (Where.fixed.place v i) = 512 * v.dirbase + 32 * i := rfl
    rw [base] at here'
    have clust : dp.clust = 0 := here.clust
    have before : ¬ 32 * i + 32 ≥ maxDir v := by
      rw [maxDir, if_neg kind]
      omega
    have present : dp.sect ≠ 0 := by omega
    have total : Where.fixed.count v = v.nRootdir := rfl
    unfold dirNext
    simp only [here.dptr, if_neg before, if_neg present, clust, if_true]
    split
    · split
      · refine ⟨valid, .inr (.inl ⟨?_, rfl⟩)⟩
        rw [total]
        omega
      · refine ⟨valid, .inl ⟨?_, rfl, ⟨?_, ?_, ?_, rfl⟩, rfl, rfl, rfl⟩⟩
        · rw [total]
          omega
        · dsimp only
          omega
        · dsimp only
          omega
        · change dp.sect + 1 = (512 * v.dirbase + 32 * (i + 1)) / 512
          omega
    · refine ⟨valid, .inl ⟨?_, rfl, ⟨?_, ?_, ?_, rfl⟩, rfl, rfl, rfl⟩⟩
      · rw [total]
        omega
      · dsimp only
        omega
      · dsimp only
        omega
      · change dp.sect = (512 * v.dirbase + 32 * (i + 1)) / 512
        omega
  · exact dirNext_max kind valid here far

/-- As long as the cluster stays the same the entries lie side by side. -/
theorem Here.side {cs : List Nat} (sound : v.Sound)
    (here : Here v (.linked cs) i dp) (within : i < (Where.linked cs).count v)
    (inside : (32 * i + 32) % (512 * v.csize) ≠ 0) :
    Fat.place v cs (32 * (i + 1)) = Fat.place v cs (32 * i) + 32 ∧
      (Where.linked cs).Cluster v (i + 1) dp.clust ∧ i + 1 < (Where.linked cs).count v := by
  have csize : 0 < 512 * v.csize := Nat.mul_pos (by decide) sound.csize_pos
  have room := sector_inside (p := 32 * i) (n := 32) sound (by omega)
  have split' := Nat.div_add_mod (32 * i) (512 * v.csize)
  have strict : 32 * i % (512 * v.csize) + 32 < 512 * v.csize := by
    rcases Nat.lt_or_eq_of_le room with less | same
    · exact less
    · have whole : 32 * i + 32 = 512 * v.csize * (32 * i / (512 * v.csize) + 1) := by
        rw [Nat.mul_succ]
        omega
      rw [whole, Nat.mul_mod_right] at inside
      exact absurd rfl inside
  have cluster : 32 * (i + 1) / (512 * v.csize) = 32 * i / (512 * v.csize) := by
    apply Nat.div_eq_of_lt_le
    · rw [Nat.mul_comm (32 * i / (512 * v.csize))]
      omega
    · rw [Nat.mul_comm (32 * i / (512 * v.csize) + 1), Nat.mul_succ (512 * v.csize)]
      omega
  refine ⟨place_add strict, ?_, ?_⟩
  · unfold Where.Cluster
    rw [cluster]
    exact here.clust
  · have short := Where.linked_cluster sound within
    rw [← cluster] at short
    have below := Nat.lt_mul_of_div_lt short csize
    change i + 1 < 16 * v.csize * cs.length
    have same : cs.length * (512 * v.csize) = 32 * (16 * v.csize * cs.length) := by
      rw [Nat.mul_comm, Nat.mul_assoc, Nat.mul_assoc, ← Nat.mul_assoc 32]
    rw [Nat.mul_comm, same] at below
    omega

/-- At the end of a cluster the FAT links the next one. -/
theorem Here.next {cs : List Nat} (sound : v.Sound) (here : Here v (.linked cs) i dp)
    (ended : (32 * i + 32) % (512 * v.csize) = 0) :
    ∃ j, cs[j]? = some dp.clust ∧ 32 * (i + 1) = 512 * v.csize * (j + 1) := by
  have csize : 0 < 512 * v.csize := Nat.mul_pos (by decide) sound.csize_pos
  have room := sector_inside (p := 32 * i) (n := 32) sound (by omega)
  have split' := Nat.div_add_mod (32 * i) (512 * v.csize)
  refine ⟨_, here.clust, ?_⟩
  rw [Nat.mul_succ (512 * v.csize)]
  obtain ⟨k, whole⟩ := Nat.dvd_of_mod_eq_zero ended
  have above : 32 * i / (512 * v.csize) < k := by
    apply Nat.div_lt_of_lt_mul
    omega
  have next : 512 * v.csize * (32 * i / (512 * v.csize) + 1) ≤ 512 * v.csize * k :=
    Nat.mul_le_mul_left _ above
  rw [Nat.mul_succ (512 * v.csize)] at next
  omega

/-- Behind the end of a cluster the next one begins, or the FAT says that it was the last. -/
theorem Here.crosses {cs : List Nat} (sound : v.Sound) (lies : (Where.linked cs).Lies d v dp.obj)
    (here : Here v (.linked cs) i dp) (ended : (32 * i + 32) % (512 * v.csize) = 0) :
    (∃ c, entry d v dp.obj dp.clust = c ∧ 2 ≤ c ∧ c < v.nFatent ∧
        i + 1 < (Where.linked cs).count v ∧
        clst2sect v c = Fat.place v cs (32 * (i + 1)) / 512 ∧
        (Where.linked cs).Cluster v (i + 1) c) ∨
      v.nFatent ≤ entry d v dp.obj dp.clust ∧ (Where.linked cs).count v ≤ i + 1 := by
  obtain ⟨j, clust, whole⟩ := here.next sound ended
  obtain ⟨-, valids, linked, last⟩ := lies
  have csize : 0 < 512 * v.csize := Nat.mul_pos (by decide) sound.csize_pos
  have length : (Where.linked cs).count v = 16 * v.csize * cs.length := rfl
  have blocks : i + 1 = 16 * v.csize * (j + 1) := by
    have same : 512 * v.csize * (j + 1) = 32 * (16 * v.csize * (j + 1)) := by
      rw [Nat.mul_assoc, Nat.mul_assoc, ← Nat.mul_assoc 32]
    omega
  rcases Nat.lt_or_ge (j + 1) cs.length with more | beyond
  · have get := List.getElem?_eq_getElem more
    obtain ⟨low, high⟩ := valids _ (List.getElem_mem more)
    refine .inl ⟨_, linked j _ _ clust get, low, high, ?_, ?_, ?_⟩
    · rw [blocks, length]
      exact Nat.mul_lt_mul_of_pos_left more (Nat.mul_pos (by decide) sound.csize_pos)
    · rw [whole, place_first sound get low high, Nat.mul_div_cancel_left _ (by decide)]
    · change cs[32 * (i + 1) / (512 * v.csize)]? = _
      rw [whole, Nat.mul_div_cancel_left _ csize, get]
  · obtain ⟨short, -⟩ := List.getElem?_eq_some_iff.mp clust
    have final : j = cs.length - 1 := by omega
    have total : j + 1 = cs.length := by omega
    refine .inr ⟨last _ (final ▸ clust), ?_⟩
    rw [length, ← total, ← blocks]

theorem dirNext_linked {cs : List Nat} (kind : v.fsType ≠ .exfat) (sound : v.Sound)
    (fits : Fits d v)
    (lies : (Where.linked cs).Lies d v dp.obj) (valid : w.Valid d)
    (here : Here v (.linked cs) i dp) (within : i < (Where.linked cs).count v) :
    Stepped d v (.linked cs) (i + 1) dp (dirNext d v w dp) := by
  rcases Nat.lt_or_ge (i + 1) 65536 with near | far
  · have before : ¬ 32 * i + 32 ≥ maxDir v := by
      rw [maxDir, if_neg kind]
      omega
    have here' : dp.sect = Fat.place v cs (32 * i) / 512 := here.sect
    have present : dp.sect ≠ 0 := by
      have inside := lies.inside sound fits within
      rw [here.sect]
      omega
    obtain ⟨low, high⟩ := lies.2.1 _ (List.mem_of_getElem? here.clust)
    have some' : dp.clust ≠ 0 := by omega
    have rest := cluster_rest (v := v) (p := 32 * i + 32)
    have offset : Fat.place v cs (32 * i) % 512 = 32 * i % 512 := Fat.place_mod
    unfold dirNext
    simp only [here.dptr, if_neg before, if_neg present, if_neg some', sound.csect_eq]
    split
    · rename_i boundary
      split
      · rename_i ended
        obtain ⟨valid', found⟩ := getFat_found dp.obj sound fits valid low high
        have small := entry_small kind (d := d) dp.obj dp.clust
        have few := sound.nFatent_le
        rcases found with value | ⟨failed, faulty⟩
        · rw [value]
          rcases here.crosses sound lies (by omega) with
            ⟨c, linked, low', high', more, first, cluster⟩ | ⟨end', final⟩
          · rw [linked, if_neg (by omega), if_neg (by omega), if_neg (by omega)]
            exact ⟨valid', .inl ⟨by omega, rfl, ⟨rfl, rfl, first, cluster⟩, rfl, rfl, rfl⟩⟩
          · rw [if_neg (by omega), if_neg (by omega), if_pos end']
            exact ⟨valid', .inr (.inl ⟨Nat.le_trans (Nat.min_le_left _ _) final, rfl⟩)⟩
        · rw [failed]
          exact ⟨valid', .inr (.inr ⟨rfl, faulty⟩)⟩
      · rename_i inside
        have positive : 0 < (32 * i + 32) / 512 % v.csize := Nat.pos_of_ne_zero inside
        obtain ⟨side, cluster, more⟩ := here.side sound within (by omega)
        refine ⟨valid, .inl ⟨by omega, rfl, ⟨rfl, rfl, ?_, cluster⟩, rfl, rfl, rfl⟩⟩
        change dp.sect + 1 = Fat.place v cs (32 * (i + 1)) / 512
        omega
    · rename_i inside
      obtain ⟨side, cluster, more⟩ := here.side sound within (by omega)
      refine ⟨valid, .inl ⟨by omega, rfl, ⟨rfl, rfl, ?_, cluster⟩, rfl, rfl, rfl⟩⟩
      change dp.sect = Fat.place v cs (32 * (i + 1)) / 512
      omega
  · exact dirNext_max kind valid here far

theorem dirNext_steps (kind : v.fsType ≠ .exfat) (sound : v.Sound) (fits : Fits d v)
    (lies : t.Lies d v dp.obj) (valid : w.Valid d) (here : Here v t i dp) (within : i < t.count v) :
    Stepped d v t (i + 1) dp (dirNext d v w dp) := by
  cases t with
  | fixed => exact dirNext_fixed kind lies valid here within
  | linked cs => exact dirNext_linked kind sound fits lies valid here within

end Steps

section Search

variable {lfnbuf : Nat → Nat} {d : Drive} {v : Volume} {t : Where} {i : Nat} {w : Win}
  {dp : Dir} {seq : Nat × Nat}

theorem entries_get (within : i < min (t.count v) 65536) :
    (t.entries d v)[i]? = some (dirent d.bytes (t.place v i)) := by
  rw [Where.entries, List.getElem?_map, List.getElem?_range within]
  rfl

theorem entries_length : (t.entries d v).length = min (t.count v) 65536 := by
  rw [Where.entries, List.length_map, List.length_range]

/-- What the search finds: the entry that the pure search of the entries from `i` on finds. -/
structure Finding (lfnbuf : Nat → Nat) (d : Drive) (v : Volume) (t : Where)
    (fn : List Byte) (nsflag : Nat) (seq : Nat × Nat) (i : Nat) (r : FResult × Dir × Win) : Prop where
  valid : r.2.2.Valid d
  result : (∃ k e, scan (look lfnbuf fn nsflag) seq ((t.entries d v).drop i) = some k ∧
      (t.entries d v)[i + k]? = some e ∧ r.1 = .ok ∧ r.2.1.attr = e.attr ∧
      dirent r.2.2.win r.2.1.dir = e ∧ r.2.1.nsflag = nsflag ∧ r.2.1.dptr % 512 = r.2.1.dir) ∨
    (scan (look lfnbuf fn nsflag) seq ((t.entries d v).drop i) = none ∧ r.1 = .noFile) ∨
    r.1 = .diskErr ∧ Faulty d

theorem Finding.earlier {fn : List Byte} {nsflag : Nat} {seq' : Nat × Nat} {r : FResult × Dir × Win}
    (later : scan (look lfnbuf fn nsflag) seq ((t.entries d v).drop i) =
      (scan (look lfnbuf fn nsflag) seq' ((t.entries d v).drop (i + 1))).map (· + 1))
    (finding : Finding lfnbuf d v t fn nsflag seq' (i + 1) r) :
    Finding lfnbuf d v t fn nsflag seq i r := by
  obtain ⟨valid, ⟨k, e, found, get, rest⟩ | ⟨none', noFile⟩ | fault⟩ := finding
  · refine ⟨valid, .inl ⟨k + 1, e, ?_, ?_, rest⟩⟩
    · rw [later, found]
      rfl
    · rw [← get, Nat.add_right_comm, Nat.add_assoc]
  · refine ⟨valid, .inr (.inl ⟨?_, noFile⟩)⟩
    rw [later, none']
    rfl
  · exact ⟨valid, .inr (.inr fault)⟩

theorem Here.dirent_eq (here : Here v t i dp) (shows : w.Shows d dp.sect) :
    dirent w.win dp.dir = dirent d.bytes (t.place v i) := by
  have offset := t.place_mod (v := v) (i := i)
  have place := Nat.div_add_mod (t.place v i) 512
  funext o
  unfold dirent
  split
  · rename_i low
    rw [shows _ (by rw [here.dir]; omega), here.sect, here.dir, ← offset]
    congr 1
    omega
  · rfl

theorem findLoop_finds (kind : v.fsType ≠ .exfat) (sound : v.Sound) (fits : Fits d v)
    (lies : t.Lies d v dp.obj) (valid : w.Valid d) (here : Here v t i dp)
    (within : i < min (t.count v) 65536) {rounds : Nat}
    (enough : min (t.count v) 65536 ≤ i + rounds) :
    Finding lfnbuf d v t dp.fn dp.nsflag seq i (findLoop lfnbuf d v rounds w dp seq) := by
  induction rounds generalizing i w dp seq with
  | zero => omega
  | succ rounds ih =>
    have within' : i < t.count v := by omega
    obtain ⟨-, inside⟩ := lies.inside sound fits within'
    rw [← here.sect] at inside
    have get := entries_get (d := d) within
    have cons : (t.entries d v).drop i =
        dirent d.bytes (t.place v i) :: (t.entries d v).drop (i + 1) := by
      obtain ⟨short, same⟩ := List.getElem?_eq_some_iff.mp get
      rw [List.drop_eq_getElem_cons short, same]
    obtain ⟨valid', ⟨ok, shows⟩ | ⟨failed, faulty⟩⟩ := moveWindow_spec valid inside fits.numbered
    · rw [findLoop]
      generalize moveWindow d w dp.sect = m at *
      obtain ⟨res, w'⟩ := m
      cases ok
      have seen := here.dirent_eq shows
      dsimp only at seen ⊢
      rw [seen]
      generalize dirent d.bytes (t.place v i) = e at *
      cases looked : look lfnbuf dp.fn dp.nsflag seq e with
      | stop =>
        refine ⟨valid', .inr (.inl ⟨?_, rfl⟩)⟩
        rw [cons, scan, looked]
      | found =>
        refine ⟨valid', .inl ⟨0, e, ?_, get, rfl, rfl, seen, rfl, ?_⟩⟩
        · rw [cons, scan, looked]
        · exact (congrArg (· % 512) here.dptr).trans here.dir.symm
      | next seq' =>
        have here' : Here v t i { dp with attr := e.attr } :=
          ⟨here.dptr, here.dir, here.sect, here.clust⟩
        have stepped : Stepped d v t (i + 1) { dp with attr := e.attr }
            (dirNext d v w' { dp with attr := e.attr }) :=
          dirNext_steps kind sound fits lies valid' here' within'
        have later : scan (look lfnbuf dp.fn dp.nsflag) seq ((t.entries d v).drop i) =
            (scan (look lfnbuf dp.fn dp.nsflag) seq' ((t.entries d v).drop (i + 1))).map
              (· + 1) := by
          rw [cons, scan, looked]
        dsimp only
        generalize dirNext d v w' { dp with attr := e.attr } = next at *
        obtain ⟨res, dp', w''⟩ := next
        obtain ⟨valid'', ⟨more, ok, there, fn, flag, obj⟩ | ⟨beyond, none'⟩ | ⟨failed, faulty⟩⟩ :=
          stepped
        · cases ok
          dsimp only at valid'' there fn flag obj ⊢
          rw [← fn, ← flag] at later ⊢
          exact (ih (obj ▸ lies) valid'' there more (by omega)).earlier later
        · cases none'
          refine ⟨valid'', .inr (.inl ⟨?_, rfl⟩)⟩
          rw [later, List.drop_eq_nil_of_le (entries_length.trans_le beyond)]
          rfl
        · cases failed
          exact ⟨valid'', .inr (.inr ⟨rfl, faulty⟩)⟩
    · rw [findLoop]
      generalize moveWindow d w dp.sect = m at *
      obtain ⟨res, w'⟩ := m
      cases failed
      exact ⟨valid', .inr (.inr ⟨rfl, faulty⟩)⟩

theorem Where.Lies.some_entry (sound : v.Sound) (lies : t.Lies d v dp.obj) :
    0 < min (t.count v) 65536 := by
  cases t with
  | fixed => exact Nat.lt_min.mpr ⟨lies.2.2.2.1, by decide⟩
  | linked cs =>
    obtain ⟨short, -⟩ := List.getElem?_eq_some_iff.mp lies.1
    refine Nat.lt_min.mpr ⟨?_, by decide⟩
    exact Nat.mul_pos (Nat.mul_pos (by decide) sound.csize_pos) short

theorem dirFind_finds (lfnbuf : Nat → Nat)
    (kind : v.fsType ≠ .exfat) (sound : v.Sound) (fits : Fits d v) (lies : t.Lies d v dp.obj)
    (valid : w.Valid d) : Finding lfnbuf d v t dp.fn dp.nsflag (0xFF, 0xFF) 0
      (dirFind lfnbuf d v w dp) := by
  obtain ⟨dp', started, here, fn, flag, sclust⟩ := dirSdi_start (w := w) kind sound lies
  unfold dirFind
  rw [started]
  dsimp only
  rw [← fn, ← flag]
  exact findLoop_finds kind sound fits (lies.obj kind sclust) valid here (lies.some_entry sound)
    (Nat.le_trans (Nat.min_le_right _ _) (Nat.le_add_left _ _))

structure Called.Found (d : Drive) (v : Volume) (t : Where) (name : List Nat) (fn : List Byte)
    (nsflag : Nat) (r : FResult × Dir × Win) : Prop where
  valid : r.2.2.Valid d
  result : (∃ i e, First Dirent.End (Called name fn nsflag) [] (t.entries d v) i ∧
      (t.entries d v)[i]? = some e ∧ r.1 = .ok ∧ r.2.1.attr = e.attr ∧
      dirent r.2.2.win r.2.1.dir = e ∧ r.2.1.nsflag = nsflag ∧ r.2.1.dptr % 512 = r.2.1.dir) ∨
    (¬ ∃ i, First Dirent.End (Called name fn nsflag) [] (t.entries d v) i) ∧ r.1 = .noFile ∨
    r.1 = .diskErr ∧ Faulty d

/-- The loop looks for the entries that are called so. -/
theorem Finding.called {name : List Nat} {fn : List Byte} {nsflag : Nat} {r : FResult × Dir × Win}
    (finding : Finding lfnbuf d v t fn nsflag (0xFF, 0xFF) 0 r) (flag : nsflag &&& 0x40 = 0)
    (tidy : Tidy (t.entries d v)) (holds : Holds lfnbuf name) : Called.Found d v t name fn nsflag r := by
  have called : ∀ i, scan (look lfnbuf fn nsflag) (0xFF, 0xFF) (t.entries d v) = some i ↔
      First Dirent.End (Called name fn nsflag) [] (t.entries d v) i :=
    fun i => search_called flag tidy holds
  obtain ⟨valid', result⟩ := finding
  refine ⟨valid', ?_⟩
  rcases result with ⟨k, e, found, get, rest⟩ | ⟨none', noFile⟩ | fault
  · rw [List.drop_zero] at found
    rw [Nat.zero_add] at get
    exact .inl ⟨k, e, (called k).mp found, get, rest⟩
  · refine .inr (.inl ⟨?_, noFile⟩)
    rintro ⟨i, first⟩
    rw [List.drop_zero, (called i).mpr first] at none'
    cases none'
  · exact .inr (.inr fault)

/-- dir_find on a FAT volume finds the first entry that is called so, unless the card fails. -/
theorem dirFind_first {name : List Nat} (kind : v.fsType ≠ .exfat) (sound : v.Sound)
    (fits : Fits d v)
    (lies : t.Lies d v dp.obj) (valid : w.Valid d) (flag : dp.nsflag &&& 0x40 = 0)
    (tidy : Tidy (t.entries d v)) (holds : Holds lfnbuf name) :
    let r := dirFind lfnbuf d v w dp
    r.2.2.Valid d ∧
      ((∃ i e, First Dirent.End (Called name dp.fn dp.nsflag) [] (t.entries d v) i ∧
          (t.entries d v)[i]? = some e ∧ r.1 = .ok ∧ r.2.1.attr = e.attr ∧
          dirent r.2.2.win r.2.1.dir = e) ∨
        (¬ ∃ i, First Dirent.End (Called name dp.fn dp.nsflag) [] (t.entries d v) i) ∧ r.1 = .noFile ∨
        r.1 = .diskErr ∧ Faulty d) := by
  obtain ⟨valid', ⟨i, e, first, get, ok, attr, seen, -⟩ | rest⟩ :=
    (dirFind_finds lfnbuf kind sound fits lies valid).called flag tidy holds
  · exact ⟨valid', .inl ⟨i, e, first, get, ok, attr, seen⟩⟩
  · exact ⟨valid', .inr rest⟩

end Search

section Labelled

/-- The card, with an entry of the root directory for the file. -/
def labelledBytes : Nat → Byte :=
  store floppyBytes 1024 (ascii ['H', 'A', 'R', 'T', '1', ' ', ' ', ' ', 'B', 'I', 'N', ' '] ++
    List.replicate 14 0 ++ [2, 0, 0x58, 2, 0, 0])

def labelled (fault : Nat → Option Nat) : Drive := ⟨labelledBytes, 128, true, fault⟩

/-- hart1.bin is looked for in the root directory. -/
def labelledDir : Dir where
  obj := ⟨true, 1, 0, 0, 0, 0, 0⟩
  attr := 0
  dptr := 0
  clust := 0
  sect := 0
  dir := 0
  fn := ascii ['H', 'A', 'R', 'T', '1', ' ', ' ', ' ', 'B', 'I', 'N']
  nsflag := 0x1C

def labelledName : List Nat := (ascii ['h', 'a', 'r', 't', '1', '.', 'b', 'i', 'n']).map UInt8.toNat

theorem labelled_fits (fault : Nat → Option Nat) : Fits (labelled fault) floppyVolume :=
  ⟨by change 128 ≤ 2 ^ 64 - 1; decide, by change 1 + 1 ≤ 128; decide,
    by change 3 + 1 * 125 ≤ 128; decide⟩

theorem labelled_healthy : ¬ Faulty (labelled fun _ => none) := fun ⟨_, fault⟩ => fault rfl

theorem labelled_lies (fault : Nat → Option Nat) :
    Where.fixed.Lies (labelled fault) floppyVolume labelledDir.obj :=
  ⟨rfl, by decide, by decide, by decide, by decide, by change 2 + 1 ≤ 128; decide⟩

theorem labelled_tidy : Tidy (Where.fixed.entries (labelled fun _ => none) floppyVolume) := by
  decide +kernel

theorem labelled_holds : Holds (fun k => labelledName.getD k 0) labelledName := by
  refine ⟨fun k c get => ?_, by decide, by decide⟩
  have some' : ∀ c ∈ labelledName, c ≠ 0 := by decide
  exact ⟨by rw [List.getD_eq_getElem?_getD, get]; rfl, some' c (List.mem_of_getElem? get)⟩

theorem labelled_first : First Dirent.End (Called labelledName labelledDir.fn labelledDir.nsflag) []
    (Where.fixed.entries (labelled fun _ => none) floppyVolume) 0 := by
  refine ⟨⟨_, entries_get (by decide), by decide +kernel, by decide +kernel, .inr ⟨rfl, ?_⟩⟩, ?_⟩
  · decide +kernel
  · intro j low
    exact absurd low (Nat.not_lt_zero j)

theorem dirFind_labelled :
    (dirFind (fun k => labelledName.getD k 0) (labelled fun _ => none) floppyVolume emptyWin
      labelledDir).1 = .ok := by
  obtain ⟨-, ⟨i, e, -, -, ok, -⟩ | ⟨none', -⟩ | ⟨-, faulty⟩⟩ :=
    dirFind_first (t := .fixed) (by decide) floppy_sound (labelled_fits _) (labelled_lies _)
      (emptyWin_valid _) (by decide) labelled_tidy labelled_holds
  · exact ok
  · exact absurd ⟨0, labelled_first⟩ none'
  · exact absurd faulty labelled_healthy

end Labelled

end MultiZone.Fat
