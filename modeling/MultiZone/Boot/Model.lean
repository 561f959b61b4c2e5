import MultiZone.Memory.Region
import Mathlib.Algebra.Group.Nat.Defs
import MultiZone.Message

/-! The boot of hart 0: the images it loads from the volume, and what the other
harts do once it has released them. -/
namespace MultiZone.Boot
open Memory

inductive Image where
  | zone1
  | zone2
  | zone3
  | zone4
  | hart1
  | hart2
  | hart3
  | hart4
  deriving DecidableEq, Repr

namespace Image

def fileName : Image → List Char
  | zone1 => ['z', 'o', 'n', 'e', '1', '.', 'b', 'i', 'n']
  | zone2 => ['z', 'o', 'n', 'e', '2', '.', 'b', 'i', 'n']
  | zone3 => ['z', 'o', 'n', 'e', '3', '.', 'b', 'i', 'n']
  | zone4 => ['z', 'o', 'n', 'e', '4', '.', 'b', 'i', 'n']
  | hart1 => ['h', 'a', 'r', 't', '1', '.', 'b', 'i', 'n']
  | hart2 => ['h', 'a', 'r', 't', '2', '.', 'b', 'i', 'n']
  | hart3 => ['h', 'a', 'r', 't', '3', '.', 'b', 'i', 'n']
  | hart4 => ['h', 'a', 'r', 't', '4', '.', 'b', 'i', 'n']

/-- The symbols of memory.ld: zone1_prog and zone1_prog_len, and so on. -/
def prog : Image → Region
  | zone1 => ⟨0x08010000, 192 * 1024⟩
  | zone2 => ⟨0x08040000, 16 * 1024⟩
  | zone3 => ⟨0x08044000, 16 * 1024⟩
  | zone4 => ⟨0x08048000, 16 * 1024⟩
  | hart1 => ⟨0x80000000, 64 * 1024 * 1024⟩
  | hart2 => ⟨0x84000000, 64 * 1024 * 1024⟩
  | hart3 => ⟨0x88000000, 64 * 1024 * 1024⟩
  | hart4 => ⟨0x8C000000, 64 * 1024 * 1024⟩

def loadAddr (fw : Image) : Nat := fw.prog.base

def loadSize (fw : Image) : Nat := fw.prog.length

end Image

def bootProg : Region := ⟨0x08002000, 56 * 1024⟩

def bootData : Region := ⟨0x0804C000, 28 * 1024⟩

def fwImage (bootMode : Nat) : List Image :=
  (if bootMode = 1 then [.zone1, .zone2, .zone3, .zone4] else []) ++
    [.hart1, .hart2, .hart3, .hart4]

/-- FR_OK, or any of the error codes. -/
inductive FResult where
  | ok
  | error
  deriving DecidableEq, Repr

/-- A file of the volume: what f_open and f_read return for it, and how many
bytes f_read has stored when it fails. -/
structure File where
  opened : FResult
  contents : List Byte
  read : FResult
  stored : Nat

abbrev Volume := Image → File

def fSize (file : File) : Nat := file.contents.length

def fRead (file : File) (btr : Nat) : FResult × List Byte :=
  (file.read, (file.contents.take btr).take (if file.read = .ok then btr else file.stored))

/-- The memory, and as history the stores that f_read has made for each image. -/
structure Loader where
  mem : Nat → Byte
  log : List (Store Image Byte)

def Loader.store (s : Loader) (fw : Image) (bytes : List Byte) : Loader where
  mem := Memory.store s.mem fw.loadAddr bytes
  log := s.log ++ [⟨fw, fw.loadAddr, bytes⟩]

def fLoad (fw : Image) (file : File) (s : Loader) : FResult × Loader :=
  match file.opened with
  | .error => (.error, s)
  | .ok =>
    if fSize file > 0 ∧ fSize file ≤ fw.loadSize then
      -- Eval version: lock down zone1
      if fw.fileName ≠ Image.zone1.fileName then
        let r := fRead file (fSize file)
        (r.1, s.store fw r.2)
      else (.ok, s)
    else (.ok, s)

section Report

inductive Overrun where
  | overrun

/-- Appends to the string in a buffer of `size` bytes, its terminator included. -/
def strcat (size : Nat) (s t : List Char) : Except Overrun (List Char) :=
  if s.length + t.length < size then .ok (s ++ t) else .error .overrun

def utoa (value : Nat) : List Char := Nat.toDigits 10 value

def padding : Nat → List Char → Except Overrun (List Char)
  | 0, strbuff => .ok strbuff
  | n + 1, strbuff => (strcat 32 strbuff [' ']).bind (padding n)

/-- The line printed for an image. The size is passed to utoa as an unsigned. -/
def report (fw : Image) (file : File) : Except Overrun (List Char) := do
  let strbuff ← strcat 32 [] ['e', 'm', 'm', 'c', ':', '/', '/']
  let strbuff ← strcat 32 strbuff fw.fileName
  let fsize ← strcat 9 [] (utoa (fSize file % 2 ^ 32))
  let strbuff ← padding ((9 + (2 ^ 64 - fsize.length)) % 2 ^ 64) strbuff
  let strbuff ← strcat 32 strbuff fsize
  strcat 32 strbuff ['\n', '\r']

end Report

/-- How the boot loop is left: the harts are released, or hart 0 stops, or the
buffers of the report have been overrun and nothing can be said. -/
inductive Exit where
  | released
  | aborted
  | overrun
  deriving DecidableEq, Repr

structure Card where
  mounted : Bool
  freeClust : Nat
  volume : Volume

def Image.isZone (fw : Image) : Bool := fw.fileName.take 4 = ['z', 'o', 'n', 'e']

def bootLoop (card : Card) : List Image → Loader → Exit × Loader
  | [], s => (.released, s)
  | fw :: rest, s =>
    match fLoad fw (card.volume fw) s with
    | (.ok, s) =>
      match report fw (card.volume fw) with
      | .ok _ => bootLoop card rest s
      | .error _ => (.overrun, s)
    | (.error, s) =>
      if fw.isZone then
        -- a remote firmware update is in progress, or the volume is full
        if card.freeClust > 0 then (.released, s) else (.aborted, s)
      else bootLoop card rest s

def e51 (bootMode : Nat) (card : Card) (mem : Nat → Byte) : Exit × Loader :=
  if card.mounted then bootLoop card (fwImage bootMode) ⟨mem, []⟩ else (.aborted, ⟨mem, []⟩)

inductive Hart where
  | hart1
  | hart2
  | hart3
  | hart4
  deriving DecidableEq, Repr

def Hart.image : Hart → Image
  | hart1 => .hart1
  | hart2 => .hart2
  | hart3 => .hart3
  | hart4 => .hart4

def Hart.mhartid : Hart → Nat
  | hart1 => 1
  | hart2 => 2
  | hart3 => 3
  | hart4 => 4

/-- The eight bytes from an address on, little-endian. -/
def ld (mem : Nat → Byte) (a : Nat) : Nat :=
  (List.range 8).foldr (fun i value => (mem (a + i)).toNat + 256 * value) 0

/-- The start code of a released hart: the address it jumps to, or none when it
goes back to waiting. -/
def u54 (mhartid : Nat) (mem : Nat → Byte) : Option Nat :=
  let t0 := Image.hart1.prog.base + Image.hart1.prog.length * (mhartid - 1)
  if ld mem t0 = 0 then none else some t0

end MultiZone.Boot
