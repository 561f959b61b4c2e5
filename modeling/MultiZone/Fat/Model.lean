import MultiZone.Memory.Layout
import MultiZone.Message
import Mathlib.Algebra.Group.Nat.Defs

/-! FatFs as the boot loader is built with it: it reads only, sectors have 512 bytes, and
one of them is held in the window of the volume. -/
namespace MultiZone.Fat
open Memory

/-- The card. At each of the transfers in turn it may fail, with some bytes stored. -/
structure Drive where
  bytes : Nat → Byte
  sectors : Nat
  initialized : Bool
  fault : Nat → Option Nat

def mmcBlockCountMax : Nat := 65535

/-- Whether the transfer succeeds, and the bytes that it stores. -/
def diskRead (d : Drive) (turn sector count : Nat) : Bool × List Byte :=
  if count ≤ mmcBlockCountMax then
    let data := window d.bytes (512 * sector) (512 * count)
    match d.fault turn with
    | none => if sector + count ≤ d.sectors then (true, data) else (false, [])
    | some n => (false, data.take n)
  else (false, [])

inductive FResult where
  | ok
  | diskErr
  | intErr
  | notReady
  | noFile
  | noPath
  | invalidName
  | invalidDrive
  | denied
  | invalidObject
  | noFilesystem
  deriving DecidableEq, Repr

inductive FsType where
  | unmounted
  | fat12
  | fat16
  | fat32
  | exfat
  deriving DecidableEq, Repr

/-- FATFS without its window. -/
structure Volume where
  fsType : FsType
  id : Nat
  nFats : Nat
  nRootdir : Nat
  csize : Nat
  nFatent : Nat
  fsize : Nat
  volbase : Nat
  fatbase : Nat
  dirbase : Nat
  database : Nat
  bitbase : Nat
  deriving DecidableEq

/-- The window, and how often the card has been read. -/
structure Win where
  winsect : Nat
  win : Nat → Byte
  reads : Nat

/-- (LBA_t)0 - 1 -/
def noSector : Nat := 2 ^ 64 - 1

def moveWindow (d : Drive) (w : Win) (sect : Nat) : FResult × Win :=
  if sect ≠ w.winsect then
    let r := diskRead d w.reads sect 1
    if r.1 then (.ok, ⟨sect, store w.win 0 r.2, w.reads + 1⟩)
    else (.diskErr, ⟨noSector, store w.win 0 r.2, w.reads + 1⟩)
  else (.ok, w)

def ldWord (win : Nat → Byte) (ptr : Nat) : Nat := number (window win ptr 2)

def ldDword (win : Nat → Byte) (ptr : Nat) : Nat := number (window win ptr 4)

def clst2sect (v : Volume) (clst : Nat) : Nat :=
  let clst := (clst + (2 ^ 32 - 2)) % 2 ^ 32
  if clst ≥ v.nFatent - 2 then 0 else v.database + v.csize * clst

/-- FFOBJID. `fs` is false for a null pointer. -/
structure Obj where
  fs : Bool
  id : Nat
  stat : Nat
  sclust : Nat
  objsize : Nat
  nCont : Nat
  nFrag : Nat

def getFat (d : Drive) (v : Volume) (obj : Obj) (w : Win) (clst : Nat) : Nat × Win :=
  if clst < 2 ∨ clst ≥ v.nFatent then (1, w)
  else match v.fsType with
  | .fat12 =>
    let bc := clst + clst / 2
    match moveWindow d w (v.fatbase + bc / 512) with
    | (.ok, w) =>
      let wc := (w.win (bc % 512)).toNat
      match moveWindow d w (v.fatbase + (bc + 1) / 512) with
      | (.ok, w) =>
        let wc := wc ||| (w.win ((bc + 1) % 512)).toNat <<< 8
        (if clst &&& 1 = 1 then wc >>> 4 else wc &&& 0xFFF, w)
      | (_, w) => (0xFFFFFFFF, w)
    | (_, w) => (0xFFFFFFFF, w)
  | .fat16 =>
    match moveWindow d w (v.fatbase + clst / 256) with
    | (.ok, w) => (ldWord w.win (clst * 2 % 512), w)
    | (_, w) => (0xFFFFFFFF, w)
  | .fat32 =>
    match moveWindow d w (v.fatbase + clst / 128) with
    | (.ok, w) => (ldDword w.win (clst * 4 % 512) &&& 0x0FFFFFFF, w)
    | (_, w) => (0xFFFFFFFF, w)
  | .exfat =>
    if obj.objsize ≠ 0 ∧ obj.sclust ≠ 0 ∨ obj.stat = 0 then
      let cofs := (clst + (2 ^ 32 - obj.sclust)) % 2 ^ 32
      let clen := (obj.objsize + (2 ^ 64 - 1)) % 2 ^ 64 / 512 / v.csize % 2 ^ 32
      if obj.stat = 2 ∧ cofs ≤ clen then (if cofs = clen then 0x7FFFFFFF else clst + 1, w)
      else if obj.stat = 3 ∧ cofs < obj.nCont then (clst + 1, w)
      else if obj.stat ≠ 2 then
        if obj.nFrag ≠ 0 then (0x7FFFFFFF, w)
        else
          match moveWindow d w (v.fatbase + clst / 128) with
          | (.ok, w) => (ldDword w.win (clst * 4 % 512) &&& 0x7FFFFFFF, w)
          | (_, w) => (0xFFFFFFFF, w)
      else (1, w)
    else (1, w)
  | .unmounted => (1, w)

/-- FIL; `err` is FR_OK until a call is aborted. -/
structure Fil where
  obj : Obj
  faRead : Bool
  err : FResult
  fptr : Nat
  clust : Nat
  sect : Nat
  buf : Nat → Byte

def validate (d : Drive) (v : Volume) (obj : Obj) : FResult :=
  if obj.fs ∧ v.fsType ≠ .unmounted ∧ obj.id = v.id ∧ d.initialized then .ok else .invalidObject

/-- One round of the loop of f_read: what it is aborted with, if it is, and what it has put
into the caller's buffer. -/
structure Round where
  abort : Option FResult
  stored : List Byte
  fp : Fil
  w : Win

/-- A part of the sector that is in the buffer of the file. -/
def copyPart (w : Win) (fp : Fil) (btr : Nat) : Round :=
  let rcnt := 512 - fp.fptr % 512
  let rcnt := if rcnt > btr then btr else rcnt
  ⟨none, window fp.buf (fp.fptr % 512) rcnt, { fp with fptr := fp.fptr + rcnt }, w⟩

/-- From the sector that begins at the file pointer, `csect` of its cluster. -/
def readSector (d : Drive) (v : Volume) (w : Win) (fp : Fil) (csect btr : Nat) : Round :=
  let sect := clst2sect v fp.clust
  if sect = 0 then ⟨some .intErr, [], fp, w⟩
  else
    let sect := sect + csect
    let cc := btr / 512
    if cc > 0 then
      let cc := if csect + cc > v.csize then v.csize - csect else cc
      let r := diskRead d w.reads sect cc
      let w := { w with reads := w.reads + 1 }
      if r.1 then ⟨none, r.2, { fp with fptr := fp.fptr + 512 * cc }, w⟩
      else ⟨some .diskErr, r.2, fp, w⟩
    else if fp.sect ≠ sect then
      let r := diskRead d w.reads sect 1
      let w := { w with reads := w.reads + 1 }
      let fp := { fp with buf := store fp.buf 0 r.2 }
      if r.1 then copyPart w { fp with sect := sect } btr else ⟨some .diskErr, [], fp, w⟩
    else copyPart w { fp with sect := sect } btr

def readRound (d : Drive) (v : Volume) (w : Win) (fp : Fil) (btr : Nat) : Round :=
  if fp.fptr % 512 = 0 then
    let csect := fp.fptr / 512 &&& (v.csize - 1)
    if csect = 0 then
      let r := if fp.fptr = 0 then (fp.obj.sclust, w) else getFat d v fp.obj w fp.clust
      if r.1 < 2 then ⟨some .intErr, [], fp, r.2⟩
      else if r.1 = 0xFFFFFFFF then ⟨some .diskErr, [], fp, r.2⟩
      else readSector d v r.2 { fp with clust := r.1 } csect btr
    else readSector d v w fp csect btr
  else copyPart w fp btr

/-- What f_read returns, the bytes it has put into the buffer of its caller, and the count
that it reports. -/
structure Read where
  res : FResult
  stored : List Byte
  br : Nat
  fp : Fil
  w : Win

/-- The loop, with a number of rounds that is enough: each stores a byte at least. -/
def readLoop (d : Drive) (v : Volume) : Nat → Win → Fil → Nat → Read
  | 0, w, fp, _ => ⟨.ok, [], 0, fp, w⟩
  | rounds + 1, w, fp, btr =>
    if btr > 0 then
      let r := readRound d v w fp btr
      match r.abort with
      | some res => ⟨res, r.stored, 0, { r.fp with err := res }, r.w⟩
      | none =>
        let rcnt := r.stored.length
        let rest := readLoop d v rounds r.w r.fp (btr - rcnt)
        { rest with stored := r.stored ++ rest.stored, br := rcnt + rest.br }
    else ⟨.ok, [], 0, fp, w⟩

def fRead (d : Drive) (v : Volume) (w : Win) (fp : Fil) (btr : Nat) : Read :=
  match validate d v fp.obj with
  | .ok =>
    match fp.err with
    | .ok =>
      if fp.faRead then
        let remain := fp.obj.objsize - fp.fptr
        let btr := if btr > remain then remain else btr
        readLoop d v btr w fp btr
      else ⟨.denied, [], 0, fp, w⟩
    | res => ⟨res, [], 0, fp, w⟩
  | res => ⟨res, [], 0, fp, w⟩

/-- A card with a FAT12 volume: a boot sector, one FAT and one sector of the root directory in
front of 125 clusters, of which the first two are a file's. -/
def floppyBytes : Nat → Byte
  | 0 => 0xEB
  | 12 => 0x02
  | 13 => 1
  | 14 => 1
  | 16 => 1
  | 17 => 16
  | 19 => 128
  | 22 => 1
  | 510 => 0x55
  | 511 => 0xAA
  | 512 => 0xF8
  | 513 => 0xFF
  | 514 => 0xFF
  | 515 => 0x03
  | 516 => 0xF0
  | 517 => 0xFF
  | a => if a < 1536 then 0 else UInt8.ofNat (a % 251)

def floppy (fault : Nat → Option Nat) : Drive := ⟨floppyBytes, 128, true, fault⟩

def floppyVolume : Volume := ⟨.fat12, 1, 1, 16, 1, 127, 1, 0, 1, 2, 3, 0⟩

def clearVolume : Volume := ⟨.unmounted, 0, 0, 0, 0, 0, 0, 0, 0, 0, 0, 0⟩

def floppyFile : Fil := ⟨⟨true, 1, 0, 2, 600, 0, 0⟩, true, .ok, 0, 0, 0, fun _ => 0⟩

def emptyWin : Win := ⟨noSector, fun _ => 0, 0⟩

end MultiZone.Fat
