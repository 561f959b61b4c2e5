import MultiZone.Fat.Names
import MultiZone.Memory.Cursor

/-! The names in a path. A segment of the path is put into the buffer as a long name, and a short name
is made of it as well. -/
namespace MultiZone.Fat
open Memory

def isSeparator (c : Nat) : Bool := c = 0x2F ∨ c = 0x5C

def isTerminator (c : Nat) : Bool := c < 0x20

/-- Of a string the terminator is left out. -/
def char (p : List Byte) : Nat := (p.headD 0).toNat

/-- `*:<>|"?` and DEL -/
def illegal : List Nat := [0x2A, 0x3A, 0x3C, 0x3E, 0x7C, 0x22, 0x3F, 0x7F]

/-- `+,;=[]` -/
def illegalShort : List Nat := [0x2B, 0x2C, 0x3B, 0x3D, 0x5B, 0x5D]

def segmentLoop : List Byte → (Nat → Nat) → Nat → (Nat → Nat) × Option (Nat × Nat × List Byte)
  | [], lfn, di => (lfn, some (0, di, []))
  | b :: p, lfn, di =>
    match tchar2uni b with
    | none => (lfn, none)
    | some wc =>
      if wc < 0x20 ∨ isSeparator wc then (lfn, some (wc, di, p))
      else if wc < 0x80 ∧ wc ∈ illegal then (lfn, none)
      else if di ≥ 255 then (lfn, none)
      else segmentLoop p (store lfn di [wc]) (di + 1)

def snip (lfn : Nat → Nat) : Nat → Nat
  | 0 => 0
  | di + 1 =>
    let wc := lfn di
    if wc ≠ 0x20 ∧ wc ≠ 0x2E then di + 1 else snip lfn di

/-- The first character that is no space, with a number of rounds that is enough. -/
def skipSpaces (lfn : Nat → Nat) : Nat → Nat → Nat
  | 0, si => si
  | rounds + 1, si => if lfn si = 0x20 then skipSpaces lfn rounds (si + 1) else si

def lastDot (lfn : Nat → Nat) : Nat → Nat
  | 0 => 0
  | di + 1 => if lfn di ≠ 0x2E then lastDot lfn di else di + 1

/-- The local variables of the second loop, and the short name. -/
structure Sfn where
  si : Nat
  i : Nat
  ni : Nat
  b : Nat
  cf : Nat
  fn : List Byte

/-- A character of the code page, in upper case if it is not of ASCII. -/
def oemUpper (wc : Nat) : Nat :=
  if wc ≥ 0x80 then
    let wc := ffUni2oem wc
    if wc &&& 0x80 ≠ 0 then exCvt.getD (wc &&& 0x7F) 0 else wc
  else wc

def sfnChar (wc b cf : Nat) : Nat × Nat × Nat :=
  let cf := if wc ≥ 0x80 then cf ||| 0x02 else cf
  let wc := oemUpper wc
  if wc = 0 ∨ wc ∈ illegalShort then (0x5F, b, cf ||| 0x03)
  else
    let b := if 0x41 ≤ wc ∧ wc ≤ 0x5A then b ||| 2 else b
    if 0x61 ≤ wc ∧ wc ≤ 0x7A then (wc - 0x20, b ||| 1, cf) else (wc, b, cf)

/-- The loop, with a number of rounds that is enough: each passes a character, but one. -/
def sfnLoop (lfn : Nat → Nat) (di : Nat) : Nat → Sfn → Sfn
  | 0, s => s
  | rounds + 1, s =>
    let wc := lfn s.si
    let si := s.si + 1
    if wc = 0 then { s with si := si }
    else if wc = 0x20 ∨ wc = 0x2E ∧ si ≠ di then
      sfnLoop lfn di rounds { s with si := si, cf := s.cf ||| 0x03 }
    else if s.i ≥ s.ni ∨ si = di then
      if s.ni = 11 then { s with si := si, cf := s.cf ||| 0x03 }
      else
        let cf := if si ≠ di then s.cf ||| 0x03 else s.cf
        if si > di then { s with si := si, cf := cf }
        else sfnLoop lfn di rounds { s with si := di, i := 8, ni := 11, b := s.b <<< 2, cf := cf }
    else
      let c := sfnChar wc s.b s.cf
      sfnLoop lfn di rounds
        { s with si := si, i := s.i + 1, b := c.2.1, cf := c.2.2, fn := s.fn.set s.i (UInt8.ofNat c.1) }

/-- What create_name gives: the path that is left, the buffer, the short name and its flags. -/
structure Created where
  path : List Byte
  lfn : Nat → Nat
  fn : List Byte
  nsflag : Nat

def sfnStart (lfn : Nat → Nat) (di cf : Nat) : Sfn :=
  let si := skipSpaces lfn di 0
  ⟨si, 0, 8, 0, if si > 0 ∨ lfn si = 0x2E then cf ||| 0x03 else cf, List.replicate 11 0x20⟩

def sfnFinish (s : Sfn) : List Byte × Nat :=
  let fn := if s.fn.headD 0 = 0xE5 then s.fn.set 0 0x05 else s.fn
  let b := if s.ni = 8 then s.b <<< 2 else s.b
  let cf := if b &&& 0x0C = 0x0C ∨ b &&& 0x03 = 0x03 then s.cf ||| 0x02 else s.cf
  if cf &&& 0x02 = 0 then
    let cf := if b &&& 0x01 ≠ 0 then cf ||| 0x10 else cf
    (fn, if b &&& 0x04 ≠ 0 then cf ||| 0x08 else cf)
  else (fn, cf)

def shortName (lfn : Nat → Nat) (di cf : Nat) : List Byte × Nat :=
  sfnFinish (sfnLoop lfn (lastDot lfn di) (di + 2) (sfnStart lfn di cf))

/-- The name is none if there is no segment; the buffer has been written to all the same. -/
def createName (path : List Byte) (lfn : Nat → Nat) : Option Created × (Nat → Nat) :=
  match segmentLoop path lfn 0 with
  | (lfn, none) => (none, lfn)
  | (lfn, some (wc, di, p)) =>
    let p := if wc < 0x20 then p else p.dropWhile fun c => isSeparator c.toNat
    let cf := if wc < 0x20 ∨ isTerminator (char p) then 0x04 else 0
    let di := snip lfn di
    let lfn := store lfn di [0]
    if di = 0 then (none, lfn)
    else
      let short := shortName lfn di cf
      (some ⟨p, lfn, short.1, short.2⟩, lfn)

def within (b : Byte) : Bool := !(isTerminator b.toNat || isSeparator b.toNat)

def segment (path : List Byte) : List Byte := path.takeWhile within

/-- The path from the end of its first segment on. -/
def behind (path : List Byte) : List Byte := path.dropWhile within

def uni (b : Byte) : Nat := ffOem2uni b.toNat

section Segments

variable {lfn : Nat → Nat} {p : List Byte} {di : Nat}

/-- The characters of the code page that mean something in a path are those of ASCII. -/
theorem uni_ascii : ∀ b < 256, (ffOem2uni b < 0x20 ↔ b < 0x20) ∧ (ffOem2uni b = 0 ↔ b = 0) ∧
    isSeparator (ffOem2uni b) = isSeparator b ∧ (ffOem2uni b ∈ illegal ↔ b ∈ illegal) ∧
    (b ∈ illegal → ffOem2uni b < 0x80) := by
  decide +kernel

theorem tchar2uni_eq (b : Byte) : tchar2uni b = some (uni b) := by
  obtain ⟨-, zero, -⟩ := uni_ascii b.toNat b.toNat_lt
  unfold tchar2uni uni
  dsimp only
  split
  · rename_i some'
    rw [if_neg (fun same => some' (zero.mp same))]
  · rename_i same
    rw [zero.mpr (Decidable.not_not.mp same), Decidable.not_not.mp same]

theorem within_iff (b : Byte) : within b = true ↔ ¬ (uni b < 0x20 ∨ isSeparator (uni b)) := by
  obtain ⟨low, -, separator, -⟩ := uni_ascii b.toNat b.toNat_lt
  unfold within isTerminator uni
  rw [separator, low, Bool.not_eq_true', Bool.or_eq_false_iff, decide_eq_false_iff_not, not_or,
    Bool.not_eq_true]

theorem segmentLoop_eq (legal : ∀ b ∈ segment p, b.toNat ∉ illegal)
    (short : di + (segment p).length ≤ 255) :
    segmentLoop p lfn di = (store lfn di ((segment p).map uni),
      some (uni ((behind p).headD 0), di + (segment p).length, (behind p).tail)) := by
  induction p generalizing lfn di with
  | nil =>
    change (lfn, some (0, di, [])) = (store lfn di [], some (0, di, []))
    rw [store_nil]
  | cons b p ih =>
    rw [segmentLoop, tchar2uni_eq]
    dsimp only
    cases inside : within b with
    | false =>
      have ended : uni b < 0x20 ∨ isSeparator (uni b) = true := by
        by_contra goes
        rw [(within_iff b).mpr goes] at inside
        cases inside
      rw [if_pos ended, segment, behind, List.takeWhile_cons_of_neg (Bool.eq_false_iff.mp inside),
        List.dropWhile_cons_of_neg (Bool.eq_false_iff.mp inside), List.map_nil, store_nil]
      rfl
    | true =>
      have goes := (within_iff b).mp inside
      rw [segment, List.takeWhile_cons_of_pos inside] at legal short
      obtain ⟨first, later⟩ := List.forall_mem_cons.mp legal
      obtain ⟨-, -, -, same, -⟩ := uni_ascii b.toNat b.toNat_lt
      rw [List.length_cons] at short
      rw [if_neg goes, if_neg (fun both => first (same.mp both.2)), if_neg (by omega),
        ih later (by rw [segment]; omega), store_cons, segment, segment, behind, behind,
        List.takeWhile_cons_of_pos inside, List.dropWhile_cons_of_pos inside, List.map_cons,
        List.length_cons, Nat.add_right_comm, Nat.add_assoc]

theorem segmentLoop_none (start : di ≤ 255) (wrong : ¬ ((∀ b ∈ segment p, b.toNat ∉ illegal) ∧
    di + (segment p).length ≤ 255)) : (segmentLoop p lfn di).2 = none := by
  induction p generalizing lfn di with
  | nil => exact absurd ⟨fun b no => absurd no List.not_mem_nil, start⟩ wrong
  | cons b p ih =>
    rw [segmentLoop, tchar2uni_eq]
    dsimp only
    cases inside : within b with
    | false =>
      rw [segment, List.takeWhile_cons_of_neg (Bool.eq_false_iff.mp inside)] at wrong
      exact absurd ⟨fun b no => absurd no List.not_mem_nil, start⟩ wrong
    | true =>
      have goes := (within_iff b).mp inside
      obtain ⟨-, -, -, same, low⟩ := uni_ascii b.toNat b.toNat_lt
      rw [segment, List.takeWhile_cons_of_pos inside, List.forall_mem_cons,
        List.length_cons] at wrong
      rw [if_neg goes]
      split
      · rfl
      · rename_i legal
        have legal' : b.toNat ∉ illegal := fun no => legal ⟨low no, same.mpr no⟩
        split
        · rfl
        · apply ih (by omega)
          rintro ⟨later, short⟩
          rw [segment] at later short
          exact wrong ⟨⟨legal', later⟩, by omega⟩

end Segments

end MultiZone.Fat
