/-! The two copies of print_pmp, of zone 2 and of harts 1 to 3: which of the sixteen
PMP entries they print, and the region that each computes for an entry. -/
namespace MultiZone.Pmp

abbrev Word := BitVec 64

structure Registers where
  pmpcfg0 : Word
  pmpcfg2 : Word
  pmpaddr : Fin 16 → BitVec 54

/-- The byte of an entry: const uint8_t cfg. -/
def Registers.cfg (s : Registers) (i : Nat) : BitVec 8 :=
  ((if i < 8 then s.pmpcfg0 else s.pmpcfg2) >>> (8 * (i % 8))).setWidth 8

/-- `pmpaddr[i]`; none outside the array. -/
def Registers.addr (s : Registers) (i : Int) : Option Word :=
  if h : 0 ≤ i ∧ i < 16 then some ((s.pmpaddr ⟨i.toNat, by omega⟩).setWidth 64) else none

def tor : BitVec 8 := 0b00001000

def na4 : BitVec 8 := 0b00010000

def napot : BitVec 8 := 0b00011000

inductive Mode where
  | tor
  | na4
  | napot
  deriving DecidableEq, Repr

/-- What is computed for an entry: start, end, and type, which may stay empty. -/
structure Row where
  start : Word
  stop : Word
  type : Option Mode
  deriving DecidableEq

/-- A shift by the width of the word or more has no meaning in C. -/
def shl (x : Word) (n : Nat) : Option Word := if n < 64 then some (x <<< n) else none

namespace Zone2

/-- for (int j=0; j<__riscv_xlen; j++), with the number of rounds still to come. -/
def napotLoop (pmpaddr : Word) : Nat → Nat → Option Row
  | 0, _ => some ⟨0, 0, none⟩
  | rounds + 1, j =>
    if (pmpaddr >>> j) &&& 1 = 0 then do
      let size ← shl 1 (3 + j)
      let start ← shl (pmpaddr >>> j) (j + 2)
      some ⟨start, start + size - 1, some .napot⟩
    else napotLoop pmpaddr rounds (j + 1)

def entry (s : Registers) (i : Nat) : Option (Option Row) :=
  let mode := s.cfg i &&& (tor ||| na4 ||| napot)
  if mode = tor then do
    let below ← s.addr (i - 1)
    let pmpaddr ← s.addr i
    some (some ⟨below <<< 2, (pmpaddr <<< 2) - 1, some .tor⟩)
  else if mode = na4 then do
    let pmpaddr ← s.addr i
    some (some ⟨pmpaddr <<< 2, (pmpaddr <<< 2) + 4 - 1, some .na4⟩)
  else if mode = napot then do
    let pmpaddr ← s.addr i
    (napotLoop pmpaddr 64 0).map some
  else some none

def printPmp (s : Registers) : Option (List Row) :=
  ((List.range 16).mapM (entry s)).map fun rows => rows.filterMap id

end Zone2

namespace Hart

def napotLoop (pmpaddr : Word) : Nat → Nat → Option Row
  | 0, _ => some ⟨0, 0, none⟩
  | rounds + 1, j =>
    if (pmpaddr >>> j) &&& 1 = 0 then do
      let size ← shl 1 (3 + j)
      let start ← shl (pmpaddr >>> j) (j + 2)
      some ⟨start, start + size, some .napot⟩
    else napotLoop pmpaddr rounds (j + 1)

def entry (s : Registers) (i : Nat) : Option (Option Row) :=
  let mode := s.cfg i &&& (tor ||| na4 ||| napot)
  if mode = tor then do
    let below ← s.addr (i - 1)
    let pmpaddr ← s.addr i
    some (some ⟨below <<< 2, pmpaddr <<< 2, some .tor⟩)
  else if mode = na4 then do
    let pmpaddr ← s.addr i
    some (some ⟨pmpaddr <<< 2, (pmpaddr <<< 2) + 4, some .na4⟩)
  else if mode = napot then do
    let pmpaddr ← s.addr i
    (napotLoop pmpaddr 64 0).map some
  else some none

def printPmp (s : Registers) : Option (List Row) :=
  ((List.range 16).mapM (entry s)).map fun rows => rows.filterMap id

end Hart

end MultiZone.Pmp
