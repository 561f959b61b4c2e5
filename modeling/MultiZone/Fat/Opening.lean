import MultiZone.Fat.Directory
import MultiZone.Fat.Paths
import MultiZone.Fat.Loading

/-! f_open follows a path from the root directory on, one segment in each directory. -/
namespace MultiZone.Fat
open Memory Transition

def ldClust (v : Volume) (dir : Dirent) : Nat :=
  let cl := ldWord dir 26
  if v.fsType = .fat32 then cl ||| ldWord dir 20 <<< 16 else cl

/-- The path without the number of the drive, of which there is one. -/
def getLdnumber (path : List Byte) : Option (List Byte) :=
  let tp := path.takeWhile fun c => !isTerminator c.toNat && c.toNat ≠ 0x3A
  match path.drop tp.length with
  | [] => some path
  | tc :: tt => if tc.toNat = 0x3A then if tp = [0x30] then some tt else none else some path

structure Follow where
  res : FResult
  dp : Dir
  lfn : Nat → Nat
  w : Win

/-- The loop, with a number of rounds that is enough: each takes a segment from the path. -/
def followLoop (d : Drive) (v : Volume) : Nat → List Byte → (Nat → Nat) → Dir → Win → Follow
  | 0, _, lfn, dp, w => ⟨.noPath, dp, lfn, w⟩
  | rounds + 1, path, lfn, dp, w =>
    match createName path lfn with
    | (none, lfn) => ⟨.invalidName, dp, lfn, w⟩
    | (some c, lfn) =>
      match dirFind lfn d v w { dp with fn := c.fn, nsflag := c.nsflag } with
      | (.ok, dp, w) =>
        if dp.nsflag &&& 0x04 ≠ 0 then ⟨.ok, dp, lfn, w⟩
        else if dp.attr &&& 0x10 = 0 then ⟨.noPath, dp, lfn, w⟩
        else
          let sclust := ldClust v (dirent w.win (dp.dptr % 512))
          followLoop d v rounds c.path lfn { dp with obj := { dp.obj with sclust := sclust } } w
      | (.noFile, dp, w) => ⟨if dp.nsflag &&& 0x04 = 0 then .noPath else .noFile, dp, lfn, w⟩
      | (res, dp, w) => ⟨res, dp, lfn, w⟩

/-- follow_path on a FAT volume. -/
def followPath (d : Drive) (v : Volume) (path : List Byte) (lfn : Nat → Nat) (dp : Dir) (w : Win) :
    Follow :=
  let path := path.dropWhile fun c => isSeparator c.toNat
  let dp := { dp with obj := { dp.obj with sclust := 0, nFrag := 0 } }
  if isTerminator (char path) then
    let r := dirSdi d v w { dp with nsflag := 0x80 } 0
    ⟨r.1, r.2.1, lfn, r.2.2⟩
  else followLoop d v (path.length + 1) path lfn dp w

structure Opened where
  res : FResult
  fp : Fil
  lfn : Nat → Nat
  w : Win

def Follow.openable (r : Follow) : FResult :=
  match r.res with
  | .ok =>
    if r.dp.nsflag &&& 0x80 ≠ 0 then .invalidName
    else if r.dp.attr &&& 0x10 ≠ 0 then .noFile
    else .ok
  | res => res

def fileObject (v : Volume) (fp : Fil) (dir : Dirent) : Fil :=
  { fp with
    obj := { fp.obj with
      sclust := ldClust v dir
      objsize := ldDword dir 28
      fs := true
      id := v.id }
    faRead := true
    err := .ok
    sect := 0
    fptr := 0 }

/-- f_open for reading, of a FAT volume that is mounted. The object of the directory, the buffer and
the object of the file hold what they held before. -/
def fOpen (d : Drive) (v : Volume) (dj : Dir) (lfn : Nat → Nat) (fp : Fil) (path : List Byte)
    (w : Win) :
    Opened :=
  match getLdnumber path with
  | none => ⟨.invalidDrive, { fp with obj := { fp.obj with fs := false } }, lfn, w⟩
  | some path =>
    let r := followPath d v path lfn { dj with obj := { dj.obj with fs := true } } w
    match r.openable with
    | .ok => ⟨.ok, fileObject v fp (dirent r.w.win r.dp.dir), r.lfn, r.w⟩
    | res => ⟨res, { fp with obj := { fp.obj with fs := false } }, r.lfn, r.w⟩

/-- The name is the one that the entry has, long or short. -/
def Written (name : List Byte) (before : List Dirent) (dir : Dirent) : Prop :=
  dir.Short ∧ ((∃ t, LongName before dir t ∧
      t.map ffWtoupper = name.map fun b => ffWtoupper (uni b)) ∨
    ∃ stem ext, Eight name stem ext ∧ window dir 0 11 = directoryForm stem ext)

/-- The directory that begins at the cluster, or the root directory for 0, lies there. -/
def Directory (d : Drive) (v : Volume) (sclust : Nat) (t : Where) : Prop :=
  t.Lies d v ⟨true, 0, 0, sclust, 0, 0, 0⟩ ∧ Tidy (t.entries d v)

def Entry (d : Drive) (v : Volume) (t : Where) (name : List Byte) (e : Dirent) : Prop :=
  ∃ i, First Dirent.End (Written name) [] (t.entries d v) i ∧ (t.entries d v)[i]? = some e

/-- The root directory lies on the card, and with a directory each one that a name leads to in it. -/
structure Tree (d : Drive) (v : Volume) (dirs : Nat → Where) : Prop where
  root : Directory d v 0 (dirs 0)
  sub : ∀ s, Directory d v s (dirs s) → ∀ name e, Entry d v (dirs s) name e → e.attr &&& 0x10 ≠ 0 →
    Directory d v (ldClust v e) (dirs (ldClust v e))

/-- The entry that a path leads to from the directory at the cluster on. -/
inductive Resolves (d : Drive) (v : Volume) (dirs : Nat → Where) : Nat → List Byte → Dirent → Prop where
  | last {s : Nat} {path : List Byte} {e : Dirent} : Valid path →
      isTerminator (char (following path)) = true → Entry d v (dirs s) (segmentName path) e →
      Resolves d v dirs s path e
  | more {s : Nat} {path : List Byte} {e e' : Dirent} : Valid path →
      isTerminator (char (following path)) = false → Entry d v (dirs s) (segmentName path) e →
      e.attr &&& 0x10 ≠ 0 → Resolves d v dirs (ldClust v e) (following path) e' →
      Resolves d v dirs s path e'

section Names

variable {d : Drive} {v : Volume} {t : Where} {path : List Byte} {c : Created}

theorem Created.Names.called (names : c.Names path) (before : List Dirent) (dir : Dirent) :
    Called ((segmentName path).map uni) c.fn c.nsflag before dir ↔
      Written (segmentName path) before dir := by
  unfold Called Written
  rw [List.map_map]
  apply and_congr_right
  intro _
  apply or_congr Iff.rfl
  constructor
  · rintro ⟨whole, same⟩
    obtain ⟨stem, ext, eight⟩ := names.form.mp whole
    exact ⟨stem, ext, eight, same.trans (names.fn stem ext eight)⟩
  · rintro ⟨stem, ext, eight, same⟩
    exact ⟨names.form.mpr ⟨stem, ext, eight⟩, same.trans (names.fn stem ext eight).symm⟩

theorem Entry.unique {name : List Byte} {e e' : Dirent} (one : Entry d v t name e)
    (two : Entry d v t name e') : e = e' := by
  obtain ⟨i, first, get⟩ := one
  obtain ⟨j, first', get'⟩ := two
  rw [first_unique first first', get'] at get
  exact (Option.some.inj get).symm

theorem Entry.short {name : List Byte} {e : Dirent} (entry : Entry d v t name e) :
    e ∈ t.entries d v ∧ e.Short := by
  obtain ⟨i, first, get⟩ := entry
  exact ⟨List.mem_of_getElem? get, (first.element get).2.1⟩

theorem following_shorter (valid : Valid path) : (following path).length < path.length := by
  have whole := congrArg List.length (List.takeWhile_append_dropWhile (p := within) (l := path))
  have rest :=
    (List.dropWhile_suffix (fun c : Byte => isSeparator c.toNat) (l := behind path)).length_le
  have some' : segment path ≠ [] := by
    intro none'
    apply valid.2.2
    rw [segmentName, none']
    rfl
  have positive := List.length_pos_iff.mpr some'
  rw [List.length_append] at whole
  change (segment path).length + (behind path).length = path.length at whole
  unfold following
  omega

end Names

structure Follow.Leads (d : Drive) (v : Volume) (dirs : Nat → Where) (s : Nat) (path : List Byte)
    (r : Follow) : Prop where
  valid : r.w.Valid d
  result : (∃ e, Resolves d v dirs s path e ∧ r.res = .ok ∧ r.dp.attr = e.attr ∧
      dirent r.w.win r.dp.dir = e ∧ r.dp.nsflag &&& 0x80 = 0) ∨
    ((¬ ∃ e, Resolves d v dirs s path e) ∧
      (r.res = .noFile ∨ r.res = .noPath ∨ r.res = .invalidName)) ∨
    r.res = .diskErr ∧ Faulty d

section Following

variable {d : Drive} {v : Volume} {dirs : Nat → Where} {path : List Byte} {dp : Dir} {w : Win}

theorem resolves_none {s : Nat} (none' : ¬ ∃ e, Entry d v (dirs s) (segmentName path) e) :
    ¬ ∃ e, Resolves d v dirs s path e := by
  rintro ⟨e, resolves⟩
  cases resolves with
  | last _ _ entry => exact none' ⟨e, entry⟩
  | more _ _ entry => exact none' ⟨_, entry⟩

theorem resolves_more {s : Nat} {e e' : Dirent} (further : isTerminator (char (following path)) = false)
    (entry : Entry d v (dirs s) (segmentName path) e) (resolves : Resolves d v dirs s path e') :
    e.attr &&& 0x10 ≠ 0 ∧ Resolves d v dirs (ldClust v e) (following path) e' := by
  cases resolves with
  | last _ ended => cases ended.symm.trans further
  | more _ _ entry' attr later =>
    obtain rfl := entry.unique entry'
    exact ⟨attr, later⟩

theorem resolves_valid {s : Nat} {e : Dirent} (resolves : Resolves d v dirs s path e) : Valid path := by
  cases resolves with
  | last named => exact named
  | more named => exact named

theorem Follow.Leads.deeper {s : Nat} {e : Dirent} {r : Follow} (named : Valid path)
    (further : isTerminator (char (following path)) = false)
    (entry : Entry d v (dirs s) (segmentName path) e) (attr : e.attr &&& 0x10 ≠ 0)
    (later : r.Leads d v dirs (ldClust v e) (following path)) : r.Leads d v dirs s path := by
  obtain ⟨valid, result⟩ := later
  refine ⟨valid, ?_⟩
  rcases result with ⟨e', resolves, rest⟩ | ⟨none', other⟩ | fault
  · exact .inl ⟨e', .more named further entry attr resolves, rest⟩
  · refine .inr (.inl ⟨?_, other⟩)
    rintro ⟨e', resolves⟩
    exact none' ⟨e', (resolves_more further entry resolves).2⟩
  · exact .inr (.inr fault)

structure Created.Found (d : Drive) (v : Volume) (t : Where) (path : List Byte) (nsflag : Nat)
    (r : FResult × Dir × Win) : Prop where
  valid : r.2.2.Valid d
  result : (∃ e, Entry d v t (segmentName path) e ∧ r.1 = .ok ∧ r.2.1.attr = e.attr ∧
      dirent r.2.2.win r.2.1.dir = e ∧ r.2.1.nsflag = nsflag ∧ r.2.1.dptr % 512 = r.2.1.dir) ∨
    ((¬ ∃ e, Entry d v t (segmentName path) e) ∧ r.1 = .noFile) ∨
    r.1 = .diskErr ∧ Faulty d

theorem Created.Names.found {c : Created} (kind : v.fsType ≠ .exfat) (sound : v.Sound)
    (fits : Fits d v) (names : c.Names path)
    (here : Directory d v dp.obj.sclust (dirs dp.obj.sclust)) (valid : w.Valid d) :
    Created.Found d v (dirs dp.obj.sclust) path c.nsflag
      (dirFind c.lfn d v w { dp with fn := c.fn, nsflag := c.nsflag }) := by
  have lies : (dirs dp.obj.sclust).Lies d v dp.obj := by
    apply here.1.obj kind
    rfl
  have written : ∀ i, First Dirent.End (Called ((segmentName path).map uni) c.fn c.nsflag) []
        ((dirs dp.obj.sclust).entries d v) i ↔
      First Dirent.End (Written (segmentName path)) [] ((dirs dp.obj.sclust).entries d v) i :=
    fun i => first_congr fun j dir _ => names.called _ dir
  have finding := @dirFind_finds d v _ w { dp with fn := c.fn, nsflag := c.nsflag } c.lfn kind sound
    fits lies valid
  obtain ⟨valid', result⟩ := finding.called names.plain here.2 names.holds
  refine ⟨valid', ?_⟩
  rcases result with ⟨i, e, first, get, rest⟩ | ⟨none', noFile⟩ | fault
  · exact .inl ⟨e, ⟨i, (written i).mp first, get⟩, rest⟩
  · refine .inr (.inl ⟨?_, noFile⟩)
    rintro ⟨e, i, first, -⟩
    exact none' ⟨i, (written i).mpr first⟩
  · exact .inr (.inr fault)

-- The rounds and the path that is left become fewer together; the directory object, the buffer and
-- the window are other ones in each round.
theorem followLoop_leads (kind : v.fsType ≠ .exfat) (sound : v.Sound) (fits : Fits d v)
    (tree : Tree d v dirs) (here : Directory d v dp.obj.sclust (dirs dp.obj.sclust))
    (valid : w.Valid d) {rounds : Nat} (enough : path.length < rounds) (lfn : Nat → Nat) :
    (followLoop d v rounds path lfn dp w).Leads d v dirs dp.obj.sclust path := by
  induction rounds generalizing path lfn dp w with
  | zero => exact absurd enough (Nat.not_lt_zero _)
  | succ rounds ih =>
    rw [followLoop]
    by_cases named : Valid path
    · obtain ⟨c, made, names⟩ := createName_valid lfn named
      have found := names.found kind sound fits here valid
      rw [made]
      dsimp only
      generalize dirFind c.lfn d v w { dp with fn := c.fn, nsflag := c.nsflag } = r at *
      obtain ⟨res, dp', w'⟩ := r
      obtain ⟨valid', ⟨e, entry, ok, attr, seen, flag, place⟩ | ⟨none', noFile⟩ |
        ⟨failed, faulty⟩⟩ := found
      · cases ok
        dsimp only at valid' attr seen flag place ⊢
        by_cases last : dp'.nsflag &&& 0x04 ≠ 0
        · rw [if_pos last]
          have resolves := Resolves.last named (names.last.mp (flag ▸ last)) entry
          refine ⟨valid', .inl ⟨e, resolves, rfl, attr, seen, ?_⟩⟩
          dsimp only
          rw [flag]
          exact names.named
        · have next := names.path (flag ▸ Decidable.not_not.mp last)
          have further : isTerminator (char (following path)) = false :=
            Bool.eq_false_iff.mpr fun ended => last (flag ▸ names.last.mpr ended)
          rw [if_neg last]
          by_cases plain : dp'.attr &&& 0x10 = 0
          · rw [if_pos plain]
            refine ⟨valid', .inr (.inl ⟨?_, .inr (.inl rfl)⟩)⟩
            rintro ⟨e', resolves⟩
            exact (resolves_more further entry resolves).1 (attr ▸ plain)
          · rw [if_neg plain, place, seen, next]
            have attr' : e.attr &&& 0x10 ≠ 0 := attr ▸ plain
            have inner := tree.sub _ here _ e entry attr'
            have shorter := following_shorter named
            have later := @ih (following path)
              { dp' with obj := { dp'.obj with sclust := ldClust v e } } w' inner valid' (by omega)
              c.lfn
            exact later.deeper named further entry attr'
      · cases noFile
        refine ⟨valid', .inr (.inl ⟨resolves_none none', ?_⟩)⟩
        dsimp only
        split
        · exact .inr (.inl rfl)
        · exact .inl rfl
      · cases failed
        exact ⟨valid', .inr (.inr ⟨rfl, faulty⟩)⟩
    · have none' := createName_none lfn named
      generalize createName path lfn = made at *
      obtain ⟨o, lfn'⟩ := made
      cases none'
      refine ⟨valid, .inr (.inl ⟨?_, .inr (.inr rfl)⟩)⟩
      rintro ⟨e, resolves⟩
      exact named (resolves_valid resolves)

theorem valid_some (valid : Valid path) : isTerminator (char path) = false := by
  cases path with
  | nil => exact absurd rfl valid.2.2
  | cons b p =>
    cases ended : isTerminator b.toNat with
    | false => exact ended
    | true =>
      have outside : within b = false := by rw [within, ended]; rfl
      have none' : segment (b :: p) = [] := List.takeWhile_cons_of_neg (Bool.eq_false_iff.mp outside)
      apply absurd _ valid.2.2
      rw [segmentName, none']
      rfl

def FileAt (d : Drive) (v : Volume) (dirs : Nat → Where) (path : List Byte) (e : Dirent) : Prop :=
  Resolves d v dirs 0 (path.dropWhile fun c => isSeparator c.toNat) e ∧ e.attr &&& 0x10 = 0

theorem resolves_unique {s : Nat} {e e' : Dirent} (one : Resolves d v dirs s path e)
    (two : Resolves d v dirs s path e') : e = e' := by
  induction one with
  | last _ ended entry =>
    cases two with
    | last _ _ entry' => exact entry.unique entry'
    | more _ further => cases ended.symm.trans further
  | more _ further entry _ _ ih => exact ih (resolves_more further entry two).2

/-- Whether a file can be opened behind a path without separators in front. -/
structure Follow.Opens (d : Drive) (v : Volume) (dirs : Nat → Where) (path : List Byte)
    (r : Follow) : Prop where
  valid : r.w.Valid d
  result : (∃ e, (Resolves d v dirs 0 path e ∧ e.attr &&& 0x10 = 0) ∧ r.openable = .ok ∧
      dirent r.w.win r.dp.dir = e) ∨
    ((¬ ∃ e, Resolves d v dirs 0 path e ∧ e.attr &&& 0x10 = 0) ∧ r.openable ≠ .ok ∧
      r.openable ≠ .diskErr) ∨
    r.openable = .diskErr ∧ Faulty d

theorem Follow.Leads.opens {r : Follow} (leads : r.Leads d v dirs 0 path) :
    r.Opens d v dirs path := by
  refine ⟨leads.valid, ?_⟩
  unfold Follow.openable
  rcases leads.result with ⟨e, resolves, ok, attr, seen, named⟩ | ⟨none', other⟩ | ⟨failed, faulty⟩
  · rw [ok, attr]
    dsimp only
    rw [if_neg (fun no => no named)]
    by_cases plain : e.attr &&& 0x10 = 0
    · rw [if_neg (fun dir => dir plain)]
      exact .inl ⟨e, ⟨resolves, plain⟩, rfl, seen⟩
    · rw [if_pos plain]
      refine .inr (.inl ⟨?_, by decide, by decide⟩)
      rintro ⟨e', resolves', plain'⟩
      obtain rfl := resolves_unique resolves resolves'
      exact plain plain'
  · refine .inr (.inl ⟨fun ⟨e, resolves, _⟩ => none' ⟨e, resolves⟩, ?_⟩)
    rcases other with noFile | noPath | invalid
    · rw [noFile]
      dsimp only
      decide
    · rw [noPath]
      dsimp only
      decide
    · rw [invalid]
      dsimp only
      decide
  · rw [failed]
    exact .inr (.inr ⟨rfl, faulty⟩)

/-- The root directory itself is followed to, and is no file. -/
theorem openable_root {dp' : Dir} (lfn : Nat → Nat) (valid : w.Valid d)
    (ended : isTerminator (char path) = true) (flag : dp'.nsflag = 0x80) :
    (⟨.ok, dp', lfn, w⟩ : Follow).Opens d v dirs path := by
  have openable : Follow.openable ⟨.ok, dp', lfn, w⟩ = .invalidName := by
    unfold Follow.openable
    dsimp only
    rw [flag]
    exact if_pos (by decide : 0x80 &&& 0x80 ≠ 0)
  refine ⟨valid, .inr (.inl ?_)⟩
  rw [openable]
  refine ⟨?_, by decide, by decide⟩
  rintro ⟨e, resolves, -⟩
  cases (valid_some (resolves_valid resolves)).symm.trans ended

theorem followPath_opens (kind : v.fsType ≠ .exfat) (sound : v.Sound) (fits : Fits d v)
    (tree : Tree d v dirs) (valid : w.Valid d) (path : List Byte) (lfn : Nat → Nat) (dp : Dir) :
    (followPath d v path lfn dp w).Opens d v dirs
      (path.dropWhile fun c => isSeparator c.toNat) := by
  unfold followPath
  dsimp only
  split
  · rename_i ended
    have lies : (dirs 0).Lies d v { dp.obj with sclust := 0, nFrag := 0 } := by
      apply tree.root.1.obj kind
      rfl
    obtain ⟨dp', started, -, -, flag, -⟩ := @dirSdi_start d v (dirs 0) w
      { dp with obj := { dp.obj with sclust := 0, nFrag := 0 }, nsflag := 0x80 } kind sound lies
    rw [started]
    exact openable_root lfn valid ended flag
  · have leads := @followLoop_leads d v dirs (path.dropWhile fun c => isSeparator c.toNat)
      { dp with obj := { dp.obj with sclust := 0, nFrag := 0 } } w kind sound fits tree tree.root
      valid _ (Nat.lt_succ_self _) lfn
    exact leads.opens

structure Opened.Leads (d : Drive) (v : Volume) (dirs : Nat → Where) (fp : Fil) (path : List Byte)
    (r : Opened) : Prop where
  valid : r.w.Valid d
  result : (∃ rest e, getLdnumber path = some rest ∧ FileAt d v dirs rest e ∧ r.res = .ok ∧
      r.fp = fileObject v fp e) ∨
    ((¬ ∃ rest e, getLdnumber path = some rest ∧ FileAt d v dirs rest e) ∧ r.res ≠ .ok ∧
      r.res ≠ .diskErr ∧ r.fp.obj.fs = false) ∨
    r.res = .diskErr ∧ r.fp.obj.fs = false ∧ Faulty d

theorem fOpen_leads (kind : v.fsType ≠ .exfat) (sound : v.Sound) (fits : Fits d v)
    (tree : Tree d v dirs)
    (valid : w.Valid d) (dj : Dir) (lfn : Nat → Nat) (fp : Fil) (path : List Byte) :
    (fOpen d v dj lfn fp path w).Leads d v dirs fp path := by
  unfold fOpen
  cases drive : getLdnumber path with
  | none =>
    dsimp only
    refine ⟨valid, .inr (.inl ⟨?_, (by decide : FResult.invalidDrive ≠ .ok),
      (by decide : FResult.invalidDrive ≠ .diskErr), rfl⟩)⟩
    rintro ⟨rest, e, some', -⟩
    cases drive.symm.trans some'
  | some rest =>
    obtain ⟨valid', result⟩ := followPath_opens kind sound fits tree valid rest lfn
      { dj with obj := { dj.obj with fs := true } }
    dsimp only
    generalize followPath d v rest lfn { dj with obj := { dj.obj with fs := true } } w = r at *
    rcases result with ⟨e, file, ok, seen⟩ | ⟨none', bad, healthy⟩ | ⟨failed, faulty⟩
    · rw [ok]
      exact ⟨valid', .inl ⟨rest, e, drive, file, rfl, congrArg (fileObject v fp) seen⟩⟩
    · have other : ¬ ∃ rest' e, getLdnumber path = some rest' ∧ FileAt d v dirs rest' e := by
        rintro ⟨rest', e, same, file⟩
        cases drive.symm.trans same
        exact none' ⟨e, file⟩
      split
      · rename_i ok
        exact absurd ok bad
      · exact ⟨valid', .inr (.inl ⟨other, bad, healthy, rfl⟩)⟩
    · rw [failed]
      exact ⟨valid', .inr (.inr ⟨rfl, rfl, faulty⟩)⟩

/-- f_open opens the file that the path leads to, at its start, and fails if there is none. It fails for
a disk error only if the card fails. -/
theorem fOpen_file (kind : v.fsType ≠ .exfat) (sound : v.Sound) (fits : Fits d v)
    (tree : Tree d v dirs)
    (valid : w.Valid d) (dj : Dir) (lfn : Nat → Nat) (fp : Fil) (path : List Byte) :
    let r := fOpen d v dj lfn fp path w
    r.w.Valid d ∧
      ((∃ rest e, getLdnumber path = some rest ∧ FileAt d v dirs rest e ∧ r.res = .ok ∧
          r.fp = fileObject v fp e) ∨
        ((¬ ∃ rest e, getLdnumber path = some rest ∧ FileAt d v dirs rest e) ∧ r.res ≠ .ok ∧
          r.res ≠ .diskErr ∧ r.fp.obj.fs = false) ∨
        r.res = .diskErr ∧ r.fp.obj.fs = false ∧ Faulty d) :=
  have leads := fOpen_leads kind sound fits tree valid dj lfn fp path
  ⟨leads.valid, leads.result⟩

end Following

section Boot

variable {d : Drive} {v : Volume} {dirs : Nat → Where} {w : Win}

/-- f_open as f_load calls it; what the objects and the buffer held may be anything. -/
def opening (d : Drive) (v : Volume) (dj : Boot.Image → Win → Dir)
    (stale : Boot.Image → Win → Nat → Nat)
    (blank : Boot.Image → Win → Fil) : Opening := fun fw w =>
  let r := fOpen d v (dj fw w) (stale fw w) (blank fw w) (ascii fw.fileName) w
  match r.res with
  | .ok => (some r.fp, r.w)
  | _ => (none, r.w)

def Stored (d : Drive) (v : Volume) (e : Dirent) (cs : List Nat) : Prop :=
  Chain d v ⟨true, v.id, 0, ldClust v e, ldDword e 28, 0, 0⟩ cs

/-- The file of an image: the first entry of the root directory that has its name. -/
def ImageFile (d : Drive) (v : Volume) (dirs : Nat → Where) (fw : Boot.Image) (e : Dirent) : Prop :=
  Entry d v (dirs 0) (ascii fw.fileName) e ∧ e.attr &&& 0x10 = 0

theorem fileName_path (fw : Boot.Image) :
    getLdnumber (ascii fw.fileName) = some (ascii fw.fileName) ∧
    (ascii fw.fileName).dropWhile (fun c => isSeparator c.toNat) = ascii fw.fileName ∧
    segmentName (ascii fw.fileName) = ascii fw.fileName ∧
    isTerminator (char (following (ascii fw.fileName))) = true := by
  cases fw <;> decide +kernel

theorem fileName_valid (fw : Boot.Image) : Valid (ascii fw.fileName) := by
  cases fw <;> decide +kernel

theorem Stored.chain {e : Dirent} {cs : List Nat} (kind : v.fsType ≠ .exfat)
    (stored : Stored d v e cs)
    (fp : Fil) : Chain d v (fileObject v fp e).obj cs := by
  obtain ⟨first, linked, valid, room⟩ := stored
  refine ⟨first, fun i c c' one two => ?_, valid, room⟩
  rw [entry_obj kind _ ⟨true, v.id, 0, ldClust v e, ldDword e 28, 0, 0⟩]
  exact linked i c c' one two

theorem opening_file (kind : v.fsType ≠ .exfat) (sound : v.Sound) (fits : Fits d v)
    (tree : Tree d v dirs)
    (valid : w.Valid d) (dj : Boot.Image → Win → Dir) (stale : Boot.Image → Win → Nat → Nat)
    (blank : Boot.Image → Win → Fil) (fw : Boot.Image) :
    (opening d v dj stale blank fw w).2.Valid d ∧ ∀ fp, (opening d v dj stale blank fw w).1 = some fp →
      ∃ e, ImageFile d v dirs fw e ∧ fp = fileObject v (blank fw w) e := by
  obtain ⟨drive, plain, name, last⟩ := fileName_path fw
  obtain ⟨valid', result⟩ := fOpen_leads kind sound fits tree valid (dj fw w) (stale fw w) (blank fw w)
    (ascii fw.fileName)
  unfold opening
  dsimp only
  generalize fOpen d v (dj fw w) (stale fw w) (blank fw w) (ascii fw.fileName) w = r at *
  split
  · rename_i ok
    refine ⟨valid', fun fp found => ?_⟩
    cases found
    rcases result with ⟨rest, e, some', ⟨resolves, file⟩, -, object⟩ | ⟨-, bad, -⟩ | ⟨failed, -⟩
    · cases drive.symm.trans some'
      rw [plain] at resolves
      refine ⟨e, ⟨?_, file⟩, object⟩
      cases resolves with
      | last _ _ entry =>
        rw [name] at entry
        exact entry
      | more _ further => cases last.symm.trans further
    · exact absurd ok bad
    · cases ok.symm.trans failed
  · exact ⟨valid', fun fp no => by cases no⟩

theorem opening_none (kind : v.fsType ≠ .exfat) (sound : v.Sound) (fits : Fits d v)
    (tree : Tree d v dirs) (valid : w.Valid d) (healthy : ¬ Faulty d) (dj : Boot.Image → Win → Dir)
    (stale : Boot.Image → Win → Nat → Nat) (blank : Boot.Image → Win → Fil) (fw : Boot.Image)
    (failed : (opening d v dj stale blank fw w).1 = none) : ¬ ∃ e, ImageFile d v dirs fw e := by
  obtain ⟨drive, plain, name, last⟩ := fileName_path fw
  obtain ⟨-, result⟩ := fOpen_leads kind sound fits tree valid (dj fw w) (stale fw w) (blank fw w)
    (ascii fw.fileName)
  unfold opening at failed
  dsimp only at failed
  generalize fOpen d v (dj fw w) (stale fw w) (blank fw w) (ascii fw.fileName) w = r at *
  rintro ⟨e, entry, file⟩
  rcases result with ⟨rest, e', -, -, ok, -⟩ | ⟨none', -⟩ | ⟨-, -, faulty⟩
  · rw [ok] at failed
    cases failed
  · apply none'
    refine ⟨_, e, drive, ?_, file⟩
    rw [plain]
    refine .last (fileName_valid fw) last ?_
    rwa [name]
  · exact healthy faulty

theorem opening_opens (kind : v.fsType ≠ .exfat) (sound : v.Sound) (fits : Fits d v)
    (tree : Tree d v dirs)
    (mounted : v.fsType ≠ .unmounted) (ready : d.initialized = true)
    (stored : ∀ fw e, ImageFile d v dirs fw e → ∃ cs, Stored d v e cs)
    (dj : Boot.Image → Win → Dir) (stale : Boot.Image → Win → Nat → Nat)
    (blank : Boot.Image → Win → Fil) :
    Opens d v (opening d v dj stale blank) := by
  intro fw w valid
  obtain ⟨valid', found⟩ := opening_file kind sound fits tree valid dj stale blank fw
  refine ⟨valid', fun fp some' => ?_⟩
  obtain ⟨e, file, rfl⟩ := found fp some'
  obtain ⟨cs, chain⟩ := stored fw e file
  refine ⟨rfl, rfl, cs, ?_, rfl, chain.chain kind _, fun _ => Nat.zero_le _, fun _ => ?_⟩
  · exact if_pos ⟨rfl, mounted, rfl, ready⟩
  · exact ⟨fun later => absurd later (Nat.lt_irrefl 0), fun some' => absurd rfl some',
      fun within => absurd rfl within⟩

theorem e51_opened (kind : v.fsType ≠ .exfat) (sound : v.Sound) (fits : Fits d v)
    (tree : Tree d v dirs) (mounted : v.fsType ≠ .unmounted) (ready : d.initialized = true)
    (stored : ∀ fw e, ImageFile d v dirs fw e → ∃ cs, Stored d v e cs)
    (dj : Boot.Image → Win → Dir) (stale : Boot.Image → Win → Nat → Nat)
    (blank : Boot.Image → Win → Fil)
    (valid : w.Valid d) (healthy : ¬ Faulty d) (counted : Bool) (freeClust bootMode : Nat)
    (mem : Nat → Byte) (h : Boot.Hart) (zero : ∀ a, h.image.prog.Holds a → mem a = 0)
    (released : (e51 d v (opening d v dj stale blank) counted freeClust bootMode w mem).1 = .released)
    (starts : Boot.u54 h.mhartid
      (e51 d v (opening d v dj stale blank) counted freeClust bootMode w mem).2.mem =
        some h.image.prog.base) :
    ∃ e cs, ImageFile d v dirs h.image e ∧ Stored d v e cs ∧ 0 < ldDword e 28 ∧
      ldDword e 28 ≤ h.image.loadSize ∧ ∀ i < ldDword e 28,
        (e51 d v (opening d v dj stale blank) counted freeClust bootMode w mem).2.mem
          (h.image.prog.base + i) = content d v cs i := by
  have opens := opening_opens kind sound fits tree mounted ready stored dj stale blank
  obtain ⟨w', fp, cs, valid', found, opened, positive, few, bytes⟩ :=
    e51_started sound fits opens valid
    healthy counted freeClust bootMode mem h zero released starts
  obtain ⟨e, file, rfl⟩ := (opening_file kind sound fits tree valid' dj stale blank h.image).2 fp found
  obtain ⟨first, linked, among, room⟩ := opened.chain
  refine ⟨e, cs, file, ⟨first, fun i c c' one two => ?_, among, room⟩, positive, few, bytes⟩
  rw [entry_obj kind _ (fileObject v (blank h.image w') e).obj]
  exact linked i c c' one two

end Boot

section Labelled

def labelledDirs : Nat → Where := fun _ => .fixed

def labelledFw : Boot.Image → Win → Dir := fun _ _ => labelledDir

theorem labelled_tree : Tree (labelled fun _ => none) floppyVolume labelledDirs := by
  have files : ∀ e ∈ Where.fixed.entries (labelled fun _ => none) floppyVolume,
      e.attr &&& 0x10 = 0 := by decide +kernel
  refine ⟨⟨?_, labelled_tidy⟩, fun s _ name e entry dir => absurd (files e entry.short.1) dir⟩
  exact (labelled_lies _).obj (by decide) rfl

theorem labelled_file (fw : Boot.Image) (e : Dirent)
    (file : ImageFile (labelled fun _ => none) floppyVolume labelledDirs fw e) :
    ldClust floppyVolume e = 2 ∧ ldDword e 28 = 600 := by
  have one : ∀ e ∈ Where.fixed.entries (labelled fun _ => none) floppyVolume, e.Short →
      ldClust floppyVolume e = 2 ∧ ldDword e 28 = 600 := by decide +kernel
  obtain ⟨mem, short⟩ := file.1.short
  exact one e mem short

theorem labelled_stored (fw : Boot.Image) (e : Dirent)
    (file : ImageFile (labelled fun _ => none) floppyVolume labelledDirs fw e) :
    ∃ cs, Stored (labelled fun _ => none) floppyVolume e cs := by
  obtain ⟨clust, size⟩ := labelled_file fw e file
  refine ⟨[2, 3], ?_, ?_, by decide, ?_⟩
  · intro c head
    cases head
    exact clust.symm
  · intro i c c' this next
    match i with
    | 0 =>
      cases this
      cases next
      rw [entry_obj (by decide) _ floppyFile.obj]
      decide +kernel
    | i + 1 => cases next
  · dsimp only
    rw [size]
    decide

theorem fOpen_labelled :
    let path := ascii Boot.Image.hart1.fileName
    ∃ rest e, FileAt (labelled fun _ => none) floppyVolume labelledDirs rest e ∧
      (fOpen (labelled fun _ => none) floppyVolume labelledDir (fun _ => 0) floppyFile path
        emptyWin).fp = fileObject floppyVolume floppyFile e := by
  have ok : (fOpen (labelled fun _ => none) floppyVolume labelledDir (fun _ => 0) floppyFile
    (ascii Boot.Image.hart1.fileName) emptyWin).res = .ok := by decide +kernel
  obtain ⟨-, ⟨rest, e, -, file, -, object⟩ | ⟨-, bad, -⟩ | ⟨-, -, faulty⟩⟩ :=
    fOpen_file (by decide) floppy_sound (labelled_fits _) labelled_tree (emptyWin_valid _) labelledDir
      (fun _ => 0) floppyFile (ascii Boot.Image.hart1.fileName)
  · exact ⟨rest, e, file, object⟩
  · exact absurd ok bad
  · exact absurd faulty labelled_healthy

end Labelled

end MultiZone.Fat
