import MultiZone.Fat.Free
import MultiZone.Fat.Layout
import MultiZone.Fat.Opening

/-! The boot loader with the functions of FatFs that it calls: it mounts the volume, counts the free
clusters, and loads each image from the file that has its name. -/
namespace MultiZone.Fat
open Memory

/-- The objects and the buffer of the names, which nothing initialises. -/
structure Stale where
  fs : Volume
  dj : Boot.Image → Win → Dir
  lfn : Boot.Image → Win → Nat → Nat
  fp : Boot.Image → Win → Fil
  obj : Obj

abbrev Stale.opening (stale : Stale) (d : Drive) (v : Volume) : Opening :=
  Fat.opening d v stale.dj stale.lfn stale.fp

/-- e51 from f_mount on, with a volume that is not exFAT: the directories of those have another form. -/
def e51Card (d : Drive) (id : Nat) (stale : Stale) (bootMode : Nat) (w : Win) (mem : Nat → Byte) :
    Boot.Exit × Boot.Loader :=
  let m := mountVolume d stale.fs id w
  match m.res, m.fs with
  | .ok, some v =>
    let free := fGetfree d v stale.obj m.w
    e51 d v (stale.opening d v) (free.res = .ok) free.nfree bootMode free.w mem
  | _, _ => (.aborted, ⟨mem, []⟩)

/-- The volume of the boot sector that the window shows lies on the card, with all its directories and
the files of the images. -/
structure OnCard (d : Drive) (w : Win) (v : Volume) (dirs : Nat → Where) : Prop where
  kind : v.fsType ≠ .exfat
  noWrap : NoWrap w.win
  inside : w.winsect + totalSectors w.win ≤ d.sectors
  tree : Tree d v dirs
  stored : ∀ fw e, ImageFile d v dirs fw e → ∃ cs, Stored d v e cs

structure Readable (d : Drive) (v : Volume) (w : Win) : Prop where
  sound : v.Sound
  fits : Fits d v
  ready : d.initialized = true
  known : v.fsType = .fat12 ∨ v.fsType = .fat16 ∨ v.fsType = .fat32
  clusters : 2 < v.nFatent
  valid : w.Valid d

section Mounted

variable {d : Drive} {v : Volume} {dirs : Nat → Where} {fs : Volume} {id : Nat} {w : Win}

theorem Readable.mounted (readable : Readable d v w) : v.fsType ≠ .unmounted := by
  rcases readable.known with kind | kind | kind <;> rw [kind] <;> decide

theorem OnCard.readable (few : d.sectors < 2 ^ 63) (mounted : (mountVolume d fs id w).fs = some v)
    (card : OnCard d (mountVolume d fs id w).w v dirs) :
    (mountVolume d fs id w).res = .ok ∧ Readable d v (mountVolume d fs id w).w := by
  obtain ⟨ready, ok, valid, laid⟩ := mountVolume_fat mounted card.kind
  have inside := card.inside
  have numbered : d.sectors ≤ noSector := by unfold noSector; omega
  obtain ⟨sound, fits⟩ := laid.sound card.noWrap (by omega) numbered inside
  exact ⟨ok, sound, fits, ready, laid.known, laid.clusters, valid⟩

theorem e51Card_eq {stale : Stale} (bootMode : Nat) (mem : Nat → Byte)
    (ok : (mountVolume d stale.fs id w).res = .ok)
    (mounted : (mountVolume d stale.fs id w).fs = some v) :
    let free := fGetfree d v stale.obj (mountVolume d stale.fs id w).w
    e51Card d id stale bootMode w mem =
      e51 d v (stale.opening d v) (free.res = .ok) free.nfree bootMode free.w mem := by
  unfold e51Card
  generalize mountVolume d stale.fs id w = m at *
  obtain ⟨res, fs, w'⟩ := m
  cases ok
  cases mounted
  rfl

theorem e51Card_none {stale : Stale} (bootMode : Nat) (mem : Nat → Byte)
    (none' : (mountVolume d stale.fs id w).fs = none) :
    e51Card d id stale bootMode w mem = (.aborted, ⟨mem, []⟩) := by
  unfold e51Card
  generalize mountVolume d stale.fs id w = m at *
  obtain ⟨res, fs, w'⟩ := m
  cases none'
  cases res <;> rfl

end Mounted

/-- No cluster of a FAT12 volume is linked with number 1. -/
def Countable (d : Drive) (v : Volume) (obj : Obj) : Prop :=
  v.fsType = .fat12 → ∀ c, 2 ≤ c → c < v.nFatent → entry d v obj c ≠ 1

section Exits

variable {d : Drive} {v : Volume} {dirs : Nat → Where} {w : Win}

theorem report_some (fw : Boot.Image) {n : Nat} (small : n < 10 ^ 8) :
    ∃ strbuff, report fw n = .ok strbuff := by
  have size : Boot.fSize ⟨.ok, List.replicate n 0, .ok, 0⟩ = n := List.length_replicate
  have reported := @Boot.report_ok fw ⟨.ok, List.replicate n 0, .ok, 0⟩ (by rw [size]; omega)
  rw [report_eq, size] at reported
  exact ⟨_, reported⟩

theorem fLoad_some (healthy : ¬ Faulty d) (readable : Readable d v w) {fOpen : Opening}
    {fw : Boot.Image} {fp : Fil} {cs : List Nat} {w' : Win} (opened : Open d v cs fp)
    (fresh : fp.fptr = 0) (ok : fp.err = .ok) (given : fOpen fw w' = (some fp, w))
    (s : Boot.Loader) :
    let r := fLoad d v fOpen fw w' s
    Readable d v r.w ∧ r.res = .ok ∧ r.fSize = fp.obj.objsize := by
  obtain ⟨-, -, -, -, faulty, valid⟩ := fRead_whole readable.sound readable.fits opened fresh ok
    readable.valid
  have read : (fRead d v w fp fp.obj.objsize).res = .ok :=
    Decidable.byContradiction fun bad => healthy (faulty bad)
  have small := loadSize_lt fw
  unfold fLoad
  rw [given]
  dsimp only
  split
  · split
    · rw [Nat.mod_eq_of_lt (by omega)]
      refine ⟨{ readable with valid := valid }, ?_, rfl⟩
      rw [read]
      rfl
    · exact ⟨readable, rfl, rfl⟩
  · exact ⟨readable, rfl, rfl⟩

theorem fLoad_image (healthy : ¬ Faulty d) (readable : Readable d v w) {boot : Win}
    (card : OnCard d boot v dirs) (stale : Stale) (fw : Boot.Image) (s : Boot.Loader) :
    let r := fLoad d v (stale.opening d v) fw w s
    Readable d v r.w ∧
      ((∃ e, ImageFile d v dirs fw e ∧ r.res = .ok ∧ r.fSize = ldDword e 28) ∨
        (¬ ∃ e, ImageFile d v dirs fw e) ∧ r.res = .error) := by
  obtain ⟨valid', found⟩ := opening_opens card.kind readable.sound readable.fits card.tree
    readable.mounted readable.ready card.stored stale.dj stale.lfn stale.fp fw w readable.valid
  have missing := @opening_none d v dirs w card.kind readable.sound readable.fits card.tree
    readable.valid healthy stale.dj stale.lfn stale.fp fw
  have file := (opening_file card.kind readable.sound readable.fits card.tree readable.valid stale.dj
    stale.lfn stale.fp fw).2
  rcases given : Fat.opening d v stale.dj stale.lfn stale.fp fw w with ⟨object, w'⟩
  rw [given] at valid' found missing file
  have given' : stale.opening d v fw w = (object, w') := given
  cases object with
  | none =>
    unfold fLoad
    rw [given']
    exact ⟨{ readable with valid := valid' }, .inr ⟨missing rfl, rfl⟩⟩
  | some fp =>
    obtain ⟨fresh, ok, cs, opened⟩ := found fp rfl
    obtain ⟨e, image, rfl⟩ := file fp rfl
    obtain ⟨readable', loaded, size⟩ := fLoad_some healthy { readable with valid := valid' } opened
      fresh ok given' s
    exact ⟨readable', .inl ⟨e, image, loaded, size⟩⟩

/-- The harts are released if each zone has its file or there is room on the volume; if not, hart 0
stops. -/
def Leaves (d : Drive) (v : Volume) (dirs : Nat → Where) (freeClust : Nat) (fws : List Boot.Image)
    (x : Boot.Exit) : Prop :=
  (x = .released ∧
    (0 < freeClust ∨ ∀ fw ∈ fws, fw.isZone = true → ∃ e, ImageFile d v dirs fw e)) ∨
  x = .aborted ∧ freeClust = 0 ∧ ∃ fw ∈ fws, fw.isZone = true ∧ ¬ ∃ e, ImageFile d v dirs fw e

theorem Leaves.cons {freeClust : Nat} {fw : Boot.Image} {rest : List Boot.Image} {x : Boot.Exit}
    (passes : fw.isZone = true → ∃ e, ImageFile d v dirs fw e)
    (later : Leaves d v dirs freeClust rest x) : Leaves d v dirs freeClust (fw :: rest) x := by
  rcases later with ⟨released, all⟩ | ⟨stopped, full, fw', member, zone, missing⟩
  · exact .inl ⟨released, all.imp_right fun all => List.forall_mem_cons.mpr ⟨passes, all⟩⟩
  · exact .inr ⟨stopped, full, fw', List.mem_cons_of_mem _ member, zone, missing⟩

-- On the images: the window and the memory change with each, what can be read of the volume does not.
theorem bootLoop_leaves (healthy : ¬ Faulty d) (readable : Readable d v w) {boot : Win}
    (card : OnCard d boot v dirs)
    (short : ∀ fw e, ImageFile d v dirs fw e → ldDword e 28 < 10 ^ 8) (stale : Stale)
    (freeClust : Nat) (fws : List Boot.Image) (s : Boot.Loader) :
    Leaves d v dirs freeClust fws (bootLoop d v (stale.opening d v) freeClust fws w s).1 := by
  induction fws generalizing w s with
  | nil => exact .inl ⟨rfl, .inr nofun⟩
  | cons fw rest ih =>
    obtain ⟨readable', image⟩ := fLoad_image healthy readable card stale fw s
    unfold bootLoop
    dsimp only
    generalize fLoad d v (stale.opening d v) fw w s = r at *
    obtain ⟨res, fSize, s', w'⟩ := r
    have later := ih readable' s'
    rcases image with ⟨e, file, rfl, rfl⟩ | ⟨missing, rfl⟩
    · obtain ⟨strbuff, reported⟩ := report_some fw (short fw e file)
      dsimp only
      rw [reported]
      exact later.cons fun _ => ⟨e, file⟩
    · dsimp only
      by_cases zone : fw.isZone = true
      · rw [if_pos zone]
        by_cases free : freeClust > 0
        · rw [if_pos free]
          exact .inl ⟨rfl, .inl free⟩
        · rw [if_neg free]
          exact .inr ⟨rfl, Nat.eq_zero_of_not_pos free, fw, List.mem_cons_self, zone, missing⟩
      · rw [if_neg zone]
        exact later.cons fun is => absurd is zone

end Exits

section Starts

variable {d : Drive} {stale : Stale} {id : Nat} {w : Win}

/-- As long as the card reads without a fault, a hart that is released and starts has in its region all
of the file that has its image's name, of the volume that was found on the card. -/
theorem e51Card_starts (healthy : ¬ Faulty d) (few : d.sectors < 2 ^ 63) (dirs : Volume → Nat → Where)
    (card : ∀ v, (mountVolume d stale.fs id w).fs = some v →
      OnCard d (mountVolume d stale.fs id w).w v (dirs v))
    (bootMode : Nat) (mem : Nat → Byte) (h : Boot.Hart)
    (zero : ∀ a, h.image.prog.Holds a → mem a = 0)
    (released : (e51Card d id stale bootMode w mem).1 = .released)
    (starts : Boot.u54 h.mhartid (e51Card d id stale bootMode w mem).2.mem =
      some h.image.prog.base) :
    ∃ v e cs, (mountVolume d stale.fs id w).fs = some v ∧ ImageFile d v (dirs v) h.image e ∧
      Stored d v e cs ∧ 0 < ldDword e 28 ∧ ldDword e 28 ≤ h.image.loadSize ∧
      ∀ i < ldDword e 28, (e51Card d id stale bootMode w mem).2.mem (h.image.prog.base + i) =
        content d v cs i := by
  cases mounted : (mountVolume d stale.fs id w).fs with
  | none =>
    rw [e51Card_none bootMode mem mounted] at released
    cases released
  | some v =>
    obtain ⟨ok, readable⟩ := (card v mounted).readable few mounted
    have eq := e51Card_eq bootMode mem ok mounted
    dsimp only at eq
    obtain ⟨valid, -⟩ := fGetfree_fat stale.obj readable.sound readable.fits readable.valid
      readable.clusters readable.known
    rw [eq] at released starts ⊢
    obtain ⟨e, cs, named⟩ := e51_opened (card v mounted).kind readable.sound readable.fits
      (card v mounted).tree readable.mounted readable.ready (card v mounted).stored stale.dj stale.lfn
      stale.fp valid healthy _ _ bootMode mem h zero released starts
    exact ⟨v, e, cs, rfl, named⟩

/-- The zones whose images are loaded have their files, or the volume has room for them. -/
def Bootable (d : Drive) (v : Volume) (dirs : Nat → Where) (obj : Obj) (bootMode : Nat) : Prop :=
  0 < freeClusters d v obj + frontZeros d v obj ∨
    ∀ fw ∈ Boot.fwImage bootMode, fw.isZone = true → ∃ e, ImageFile d v dirs fw e

/-- As long as the card reads without a fault, the harts are released exactly if a volume is found from
which the zones can be loaded, now or after an update. Files of more than eight digits are left out:
their report does not fit. -/
theorem e51Card_released (healthy : ¬ Faulty d) (few : d.sectors < 2 ^ 63) (dirs : Volume → Nat → Where)
    (card : ∀ v, (mountVolume d stale.fs id w).fs = some v →
      OnCard d (mountVolume d stale.fs id w).w v (dirs v))
    (countable : ∀ v, (mountVolume d stale.fs id w).fs = some v → Countable d v stale.obj)
    (short : ∀ v, (mountVolume d stale.fs id w).fs = some v →
      ∀ fw e, ImageFile d v (dirs v) fw e → ldDword e 28 < 10 ^ 8)
    (bootMode : Nat) (mem : Nat → Byte) :
    let x := (e51Card d id stale bootMode w mem).1
    (x = .released ↔ ∃ v, (mountVolume d stale.fs id w).fs = some v ∧
      Bootable d v (dirs v) stale.obj bootMode) ∧ x ≠ .overrun := by
  cases mounted : (mountVolume d stale.fs id w).fs with
  | none =>
    rw [e51Card_none bootMode mem mounted]
    refine ⟨⟨nofun, ?_⟩, nofun⟩
    rintro ⟨v, no, -⟩
    cases no
  | some v =>
    obtain ⟨ok, readable⟩ := (card v mounted).readable few mounted
    have eq := e51Card_eq bootMode mem ok mounted
    dsimp only at eq ⊢
    rw [eq]
    obtain ⟨valid, counted⟩ := fGetfree_fat stale.obj readable.sound readable.fits readable.valid
      readable.clusters readable.known
    generalize fGetfree d v stale.obj (mountVolume d stale.fs id w).w = free at *
    rcases counted with ⟨counts, number⟩ | ⟨-, faulty⟩ | ⟨-, fat12, c, low, high, one⟩
    · rw [counts, number]
      have leaves := bootLoop_leaves healthy { readable with valid := valid } (card v mounted)
        (short v mounted) stale (freeClusters d v stale.obj + frontZeros d v stale.obj)
        (Boot.fwImage bootMode) ⟨mem, []⟩
      have loop (nfree : Nat) : e51 d v (stale.opening d v) (decide (FResult.ok = FResult.ok)) nfree
          bootMode free.w mem =
          bootLoop d v (stale.opening d v) nfree (Boot.fwImage bootMode) free.w ⟨mem, []⟩ := rfl
      rw [loop]
      rcases leaves with ⟨done, all⟩ | ⟨stopped, full, fw, member, zone, none'⟩
      · rw [done]
        exact ⟨⟨fun _ => ⟨v, rfl, all⟩, fun _ => rfl⟩, nofun⟩
      · rw [stopped]
        refine ⟨⟨nofun, ?_⟩, nofun⟩
        rintro ⟨v', same, free' | all⟩
        · cases same
          exact absurd full (Nat.ne_of_gt free')
        · cases same
          exact absurd (all fw member zone) none'
    · exact absurd faulty healthy
    -- Where a cluster is linked with number 1, f_getfree gives the volume up.
    · exact absurd one (countable v mounted fat12 c low high)

end Starts

section Labelled

def labelledStale : Stale :=
  ⟨clearVolume, labelledFw, fun _ _ _ => 0, fun _ _ => floppyFile, floppyFile.obj⟩

theorem labelled_mounted :
    (mountVolume (labelled fun _ => none) labelledStale.fs 1 emptyWin).fs = some floppyVolume := by
  decide +kernel

theorem labelled_card (v : Volume)
    (mounted : (mountVolume (labelled fun _ => none) labelledStale.fs 1 emptyWin).fs = some v) :
    OnCard (labelled fun _ => none) (mountVolume (labelled fun _ => none) labelledStale.fs 1 emptyWin).w v
      labelledDirs := by
  cases labelled_mounted.symm.trans mounted
  exact ⟨by decide, by unfold NoWrap; decide +kernel, by decide +kernel, labelled_tree,
    labelled_stored⟩

theorem labelled_countable (v : Volume)
    (mounted : (mountVolume (labelled fun _ => none) labelledStale.fs 1 emptyWin).fs = some v) :
    Countable (labelled fun _ => none) v labelledStale.obj := by
  cases labelled_mounted.symm.trans mounted
  have linked : ∀ c < 127, entry (labelled fun _ => none) floppyVolume labelledStale.obj c ≠ 1 := by
    decide +kernel
  exact fun _ c _ high => linked c high

theorem e51Card_labelled : ∃ v e cs, ImageFile (labelled fun _ => none) v labelledDirs .hart1 e ∧
    ∀ i < ldDword e 28, (e51Card (labelled fun _ => none) 1 labelledStale 0 emptyWin
        fun _ => 0).2.mem (Boot.Hart.hart1.image.prog.base + i) =
      content (labelled fun _ => none) v cs i := by
  obtain ⟨v, e, cs, -, file, -, -, -, bytes⟩ := e51Card_starts labelled_healthy
    (by decide) (fun _ => labelledDirs) labelled_card 0 (fun _ => 0) .hart1
    (fun _ _ => rfl) (by decide +kernel) (by decide +kernel)
  exact ⟨v, e, cs, file, bytes⟩

/-- There are no files of the zones on the card, but there is room for them. -/
theorem e51Card_updating :
    (e51Card (labelled fun _ => none) 1 labelledStale 1 emptyWin fun _ => 0).1 =
      .released := by
  have short : ∀ v, (mountVolume (labelled fun _ => none) labelledStale.fs 1 emptyWin).fs = some v →
      ∀ fw e, ImageFile (labelled fun _ => none) v labelledDirs fw e → ldDword e 28 < 10 ^ 8 := by
    intro v mounted fw e file
    cases labelled_mounted.symm.trans mounted
    rw [(labelled_file fw e file).2]
    decide
  exact (e51Card_released labelled_healthy (by decide) (fun _ => labelledDirs)
    labelled_card labelled_countable short 1 fun _ => 0).1.mpr
    ⟨floppyVolume, labelled_mounted, .inl (by decide +kernel)⟩

end Labelled

end MultiZone.Fat
