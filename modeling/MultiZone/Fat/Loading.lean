import MultiZone.Fat.Reading
import MultiZone.Boot.Start

/-! The boot loop with f_read as FatFs has it. For the loop the volume is a set of files each of
which is read completely or in part. -/
namespace MultiZone.Fat
open Memory

/-- What f_open gives for an image: an object of its file, unless it fails. -/
abbrev Opening := Boot.Image → Win → Option Fil × Win

/-- The result of f_load, the size that it leaves in the object, and the memory. -/
structure Load where
  res : Boot.FResult
  fSize : Nat
  s : Boot.Loader
  w : Win

def FResult.loaded : FResult → Boot.FResult
  | .ok => .ok
  | _ => .error

def fLoad (d : Drive) (v : Volume) (fOpen : Opening) (fw : Boot.Image) (w : Win)
    (s : Boot.Loader) : Load :=
  match fOpen fw w with
  | (none, w) => ⟨.error, 0, s, w⟩
  | (some fp, w) =>
    let fSize := fp.obj.objsize
    if fSize > 0 ∧ fSize ≤ fw.loadSize then
      if fw.fileName ≠ Boot.Image.zone1.fileName then
        let r := fRead d v w fp (fSize % 2 ^ 32)
        ⟨r.res.loaded, fSize, s.store fw r.stored, r.w⟩
      else ⟨.ok, fSize, s, w⟩
    else ⟨.ok, fSize, s, w⟩

def report (fw : Boot.Image) (fSize : Nat) : Except Boot.Overrun (List Char) := do
  let strbuff ← Boot.strcat 32 [] ['e', 'm', 'm', 'c', ':', '/', '/']
  let strbuff ← Boot.strcat 32 strbuff fw.fileName
  let fsize ← Boot.strcat 9 [] (Boot.utoa (fSize % 2 ^ 32))
  let strbuff ← Boot.padding ((9 + (2 ^ 64 - fsize.length)) % 2 ^ 64) strbuff
  let strbuff ← Boot.strcat 32 strbuff fsize
  Boot.strcat 32 strbuff ['\n', '\r']

def bootLoop (d : Drive) (v : Volume) (fOpen : Opening) (freeClust : Nat) :
    List Boot.Image → Win → Boot.Loader → Boot.Exit × Boot.Loader
  | [], _, s => (.released, s)
  | fw :: rest, w, s =>
    let r := fLoad d v fOpen fw w s
    match r.res with
    | .ok =>
      match report fw r.fSize with
      | .ok _ => bootLoop d v fOpen freeClust rest r.w r.s
      | .error _ => (.overrun, r.s)
    | .error =>
      if fw.isZone then
        if freeClust > 0 then (.released, r.s) else (.aborted, r.s)
      else bootLoop d v fOpen freeClust rest r.w r.s

/-- f_open fails, or gives an object that stands at the start of its file. -/
def Opens (d : Drive) (v : Volume) (fOpen : Opening) : Prop :=
  ∀ fw w, w.Valid d → (fOpen fw w).2.Valid d ∧ ∀ fp, (fOpen fw w).1 = some fp →
    fp.fptr = 0 ∧ fp.err = .ok ∧ ∃ cs, Open d v cs fp

/-- The file is one of the volume's, as f_open finds it. -/
def Finds (d : Drive) (v : Volume) (fOpen : Opening) (fw : Boot.Image) (file : Boot.File) : Prop :=
  file.opened = .ok → ∃ w fp cs, w.Valid d ∧ (fOpen fw w).1 = some fp ∧ Open d v cs fp ∧
    file.contents = window (content d v cs) 0 fp.obj.objsize ∧
    (file.read ≠ .ok → Faulty d)

section Whole

variable {d : Drive} {v : Volume} {cs : List Nat} {fp : Fil} {w : Win}

theorem FResult.failure_none {res : FResult} : res.failure = none ↔ res = .ok := by
  cases res <;> decide

theorem fRead_whole (sound : v.Sound) (fits : Fits d v) (opened : Open d v cs fp)
    (fresh : fp.fptr = 0) (ok : fp.err = .ok) (valid : w.Valid d) :
    ∃ k ≤ fp.obj.objsize,
      (fRead d v w fp fp.obj.objsize).stored = window (content d v cs) 0 k ∧
      ((fRead d v w fp fp.obj.objsize).res = .ok → k = fp.obj.objsize) ∧
      ((fRead d v w fp fp.obj.objsize).res ≠ .ok → Faulty d) ∧
      (fRead d v w fp fp.obj.objsize).w.Valid d := by
  obtain ⟨call, -, valid', -, faulty, -⟩ := fRead_call sound fits opened valid fp.obj.objsize
  have start : fp.cursor = ⟨0, none⟩ := by rw [Fil.cursor, fresh, ok, FResult.failure]
  rw [start] at call
  generalize fRead d v w fp fp.obj.objsize = r at *
  generalize outcome : r.outcome = o at call
  generalize moved : r.fp.cursor = c at call
  cases call with
  | whole =>
    have res := FResult.failure_none.mp (congrArg Outcome.failed outcome)
    have stored := congrArg Outcome.values outcome
    refine ⟨_, ?_, stored, fun _ => ?_, fun bad => absurd res bad, valid'⟩
    · exact Nat.min_le_left _ _
    · exact Nat.min_self _
  | @part _ _ k e short pos' =>
    have stored := congrArg Outcome.values outcome
    have failed := congrArg Cursor.failed moved
    refine ⟨k, Nat.le_trans short (Nat.min_le_left _ _), stored, fun good => ?_, fun _ => ?_, valid'⟩
    · have none' := FResult.failure_none.mpr good
      cases none'.symm.trans (congrArg Outcome.failed outcome)
    · apply faulty
      intro same
      have none' := FResult.failure_none.mpr (same.trans ok)
      cases none'.symm.trans failed

end Whole

section Loop

variable {d : Drive} {v : Volume} {fOpen : Opening} {w : Win}

theorem report_eq (fw : Boot.Image) (file : Boot.File) :
    Boot.report fw file = report fw (Boot.fSize file) := rfl

theorem fRead_file {bytes : Nat → Byte} {n k : Nat} {read : Boot.FResult} (short : k ≤ n)
    (all : read = .ok → k = n) :
    Boot.fRead ⟨.ok, window bytes 0 n, read, k⟩ n = (read, window bytes 0 k) := by
  have whole : (window bytes 0 n).take n = window bytes 0 n := window_take _ (Nat.le_refl n)
  rw [Boot.fRead]
  dsimp only
  rw [whole]
  split
  · rename_i ok
    rw [whole, all ok]
  · rw [window_take _ short]

theorem loadSize_lt (fw : Boot.Image) : fw.loadSize < 2 ^ 32 := by
  cases fw <;> decide

theorem fLoad_file (sound : v.Sound) (fits : Fits d v) (opens : Opens d v fOpen)
    (valid : w.Valid d) (fw : Boot.Image) (s : Boot.Loader) :
    (fLoad d v fOpen fw w s).w.Valid d ∧ ∃ file, Finds d v fOpen fw file ∧
      Boot.fLoad fw file s = ((fLoad d v fOpen fw w s).res, (fLoad d v fOpen fw w s).s) ∧
      (file.opened = .ok → (fLoad d v fOpen fw w s).fSize = Boot.fSize file) ∧
      (file.opened = .error → (fLoad d v fOpen fw w s).res = .error) := by
  obtain ⟨valid', found⟩ := opens fw w valid
  unfold fLoad
  rcases given : fOpen fw w with ⟨object, w'⟩
  rw [given] at valid' found
  cases object with
  | none =>
    exact ⟨valid', ⟨.error, [], .error, 0⟩, nofun, rfl, nofun, fun _ => rfl⟩
  | some fp =>
    obtain ⟨fresh, ok, cs, opened⟩ := found fp rfl
    obtain ⟨k, few, stored, all, faulty, valid''⟩ := fRead_whole sound fits opened fresh ok valid'
    generalize read : fRead d v w' fp fp.obj.objsize = r at *
    have small := loadSize_lt fw
    have finds : Finds d v fOpen fw
        ⟨.ok, window (content d v cs) 0 fp.obj.objsize, r.res.loaded, k⟩ := by
      intro _
      refine ⟨w, fp, cs, valid, congrArg Prod.fst given, opened, rfl, fun bad => faulty ?_⟩
      intro good
      rw [good] at bad
      exact bad rfl
    refine ⟨?_, _, finds, ?_, ?_, nofun⟩
    · dsimp only
      split
      · split
        · rw [Nat.mod_eq_of_lt (by omega), read]
          exact valid''
        · exact valid'
      · exact valid'
    · rw [Boot.fLoad, Boot.fSize, window_length]
      dsimp only
      split
      · split
        · have done : r.res.loaded = .ok → k = fp.obj.objsize := by
            intro loaded
            apply all
            cases res : r.res <;> rw [res] at loaded <;> first | rfl | cases loaded
          rw [Nat.mod_eq_of_lt (by omega), read, fRead_file few done, stored]
        · rfl
      · rfl
    · intro _
      rw [Boot.fSize, window_length]
      dsimp only
      split
      · split <;> rfl
      · rfl

theorem bootLoop_congr {volume volume' : Boot.Volume} {freeClust : Nat}
    {fws : List Boot.Image} {s : Boot.Loader} (same : ∀ fw ∈ fws, volume fw = volume' fw) :
    Boot.bootLoop ⟨true, freeClust, volume⟩ fws s =
      Boot.bootLoop ⟨true, freeClust, volume'⟩ fws s := by
  induction fws generalizing s with
  | nil => rfl
  | cons fw rest ih =>
    have later : ∀ fw ∈ rest, volume fw = volume' fw := fun fw' member =>
      same fw' (List.mem_cons_of_mem _ member)
    rw [Boot.bootLoop, Boot.bootLoop]
    simp only [same fw List.mem_cons_self, ih later]

theorem bootLoop_files (sound : v.Sound) (fits : Fits d v) (opens : Opens d v fOpen)
    (valid : w.Valid d) (freeClust : Nat) {fws : List Boot.Image} (nodup : fws.Nodup)
    (s : Boot.Loader) :
    ∃ volume, (∀ fw, Finds d v fOpen fw (volume fw)) ∧
      bootLoop d v fOpen freeClust fws w s = Boot.bootLoop ⟨true, freeClust, volume⟩ fws s := by
  induction fws generalizing w s with
  | nil =>
    refine ⟨fun _ => ⟨.error, [], .error, 0⟩, fun _ opened => ?_, rfl⟩
    cases opened
  | cons fw rest ih =>
    obtain ⟨fresh, nodup'⟩ := List.nodup_cons.mp nodup
    obtain ⟨valid', file, finds, load, size, failed⟩ := fLoad_file sound fits opens valid fw s
    obtain ⟨volume, all, same⟩ := ih valid' nodup' (fLoad d v fOpen fw w s).s
    have next : Boot.bootLoop ⟨true, freeClust, volume⟩ rest (fLoad d v fOpen fw w s).s =
        Boot.bootLoop ⟨true, freeClust, Function.update volume fw file⟩ rest
          (fLoad d v fOpen fw w s).s := by
      apply bootLoop_congr
      intro fw' member
      have other : fw' ≠ fw := fun same => fresh (same ▸ member)
      exact (Function.update_of_ne other file volume).symm
    refine ⟨Function.update volume fw file, ?_, ?_⟩
    · intro fw'
      rcases Decidable.em (fw' = fw) with rfl | other
      · rw [Function.update_self]
        exact finds
      · rw [Function.update_of_ne other]
        exact all fw'
    · rw [bootLoop, Boot.bootLoop]
      dsimp only
      rw [Function.update_self, load]
      rw [same, next]
      cases res : (fLoad d v fOpen fw w s).res with
      | ok =>
        cases opened : file.opened with
        | ok =>
          dsimp only
          rewrite [report_eq, size opened]
          rfl
        | error =>
          have wrong := (failed opened).symm.trans res
          cases wrong
      | error => rfl

end Loop

def e51 (d : Drive) (v : Volume) (fOpen : Opening) (mounted : Bool) (freeClust bootMode : Nat)
    (w : Win) (mem : Nat → Byte) : Boot.Exit × Boot.Loader :=
  if mounted then bootLoop d v fOpen freeClust (Boot.fwImage bootMode) w ⟨mem, []⟩
  else (.aborted, ⟨mem, []⟩)

section Boot

variable {d : Drive} {v : Volume} {fOpen : Opening} {w : Win}

theorem loads_whole {volume : Boot.Volume} {bytes : Nat → Byte} {n : Nat} {h : Boot.Hart}
    {bootMode : Nat} {mem : Nat → Byte} (fits : Boot.Fits h.image (volume h.image))
    (contents : (volume h.image).contents = window bytes 0 n)
    (read : (volume h.image).read = .ok) {i : Nat} (inside : i < n) :
    ((Boot.fwImage bootMode).foldl (Boot.load volume) ⟨mem, []⟩).mem (h.image.prog.base + i) =
      bytes i := by
  have size : Boot.fSize (volume h.image) = n := by rw [Boot.fSize, contents, window_length]
  have small : Boot.fSize (volume h.image) ≤ h.image.prog.length := fits.2.2.1
  have holds : h.image.prog.Holds (h.image.prog.base + i) := by
    unfold Region.Holds
    omega
  have byte : (window bytes 0 n)[i]? = some (bytes i) := by rw [window_get _ inside, Nat.zero_add]
  rw [Boot.loads_own (Boot.fwImage_nodup bootMode) (Boot.hart_mem bootMode h) holds,
    Boot.load_mem, if_pos fits, Boot.delivered_all.mpr (.inl read), contents]
  exact store_inside byte

/-- The loop with f_read as FatFs has it is the loop over a set of files: each is one of the
volume's, and is read completely unless the card fails. -/
theorem e51_files (sound : v.Sound) (fits : Fits d v) (opens : Opens d v fOpen)
    (valid : w.Valid d) (mounted : Bool) (freeClust bootMode : Nat) (mem : Nat → Byte) :
    ∃ volume, (∀ fw, Finds d v fOpen fw (volume fw)) ∧
      e51 d v fOpen mounted freeClust bootMode w mem =
        Boot.e51 bootMode ⟨mounted, freeClust, volume⟩ mem := by
  obtain ⟨volume, finds, same⟩ := bootLoop_files sound fits opens valid freeClust
    (Boot.fwImage_nodup bootMode) ⟨mem, []⟩
  refine ⟨volume, finds, ?_⟩
  cases mounted with
  | false => rfl
  | true => exact same

/-- As long as the card reads without a fault, a hart that is released and starts has all of a
file of the volume in its region. -/
theorem e51_started (sound : v.Sound) (fits : Fits d v) (opens : Opens d v fOpen)
    (valid : w.Valid d) (healthy : ¬ Faulty d) (mounted : Bool) (freeClust bootMode : Nat)
    (mem : Nat → Byte) (h : Boot.Hart) (zero : ∀ a, h.image.prog.Holds a → mem a = 0)
    (released : (e51 d v fOpen mounted freeClust bootMode w mem).1 = .released)
    (starts : Boot.u54 h.mhartid (e51 d v fOpen mounted freeClust bootMode w mem).2.mem =
      some h.image.prog.base) :
    ∃ w' fp cs, w'.Valid d ∧ (fOpen h.image w').1 = some fp ∧ Open d v cs fp ∧
      0 < fp.obj.objsize ∧ fp.obj.objsize ≤ h.image.loadSize ∧ ∀ i < fp.obj.objsize,
        (e51 d v fOpen mounted freeClust bootMode w mem).2.mem (h.image.prog.base + i) =
          content d v cs i := by
  rw [Boot.u54_jumps] at starts
  cases mounted with
  | false => cases released
  | true =>
    obtain ⟨i, first, started⟩ := starts
    obtain ⟨volume, finds, same⟩ := bootLoop_files sound fits opens valid freeClust
      (Boot.fwImage_nodup bootMode) ⟨mem, []⟩
    have loop : e51 d v fOpen true freeClust bootMode w mem =
        Boot.bootLoop ⟨true, freeClust, volume⟩ (Boot.fwImage bootMode) ⟨mem, []⟩ := same
    rw [loop] at released started ⊢
    rcases Boot.bootLoop_cases ⟨true, freeClust, volume⟩ (Boot.fwImage bootMode) ⟨mem, []⟩ with
      ⟨-, done⟩ | ⟨before, fw, after, split, -, state, zone⟩
    · rw [done] at started ⊢
      have loaded := ((Boot.first_bytes zero first).mp started).1
      obtain ⟨w', fp, cs, valid', object, opened, contents, faulty⟩ := finds h.image loaded.1
      have read : (volume h.image).read = .ok :=
        Decidable.byContradiction fun bad => healthy (faulty bad)
      have size : Boot.fSize (volume h.image) = fp.obj.objsize := by
        rw [Boot.fSize, contents, window_length]
      exact ⟨w', fp, cs, valid', object, opened, size ▸ loaded.2.1, size ▸ loaded.2.2.1,
        fun i inside => loads_whole loaded contents read inside⟩
    · have inside := Boot.first_inside h first
      rw [state, Boot.loads_other (Boot.zones_before split (zone released) h) inside] at started
      exact absurd (zero _ inside) started

end Boot

section Floppy

/-- The file is hart 1's, and there are no others. -/
def floppyOpen : Opening := fun fw w => (if fw = .hart1 then some floppyFile else none, w)

theorem floppy_opens (fault : Nat → Option Nat) : Opens (floppy fault) floppyVolume floppyOpen := by
  intro fw w valid
  refine ⟨valid, fun fp found => ?_⟩
  dsimp only [floppyOpen] at found
  split at found
  · cases found
    exact ⟨rfl, rfl, [2, 3], floppy_open fault⟩
  · cases found

theorem floppy_files : ∃ volume : Boot.Volume,
    e51 (floppy fun _ => some 600) floppyVolume floppyOpen true 1 0 emptyWin (fun _ => 0) =
      Boot.e51 0 ⟨true, 1, volume⟩ fun _ => 0 := by
  obtain ⟨volume, -, same⟩ := e51_files floppy_sound (floppy_fits _)
    (floppy_opens fun _ => some 600) (emptyWin_valid _) true 1 0 fun _ => 0
  exact ⟨volume, same⟩

end Floppy

end MultiZone.Fat
