import MultiZone.Formatting.Conversions
import Mathlib.Logic.Function.Basic

/-! printf of zone 2, which is built without floating point, long long and ptrdiff_t. The
characters are passed to the output function one by one with the index 0, 1 and so on; they are
listed here in that order. -/
namespace MultiZone.Printf
open Formatting

/-- The format is read past its end, or an argument is taken that is not there or is of
another type. -/
inductive Undefined where
  | overrun
  | argument
  deriving DecidableEq, Repr

structure Flags where
  zeropad : Bool
  left : Bool
  plus : Bool
  space : Bool
  hash : Bool
  uppercase : Bool
  char : Bool
  short : Bool
  long : Bool
  longLong : Bool
  precision : Bool
  deriving DecidableEq, Repr

def ntoaBufferSize : Nat := 32

/-- An unsigned int. -/
def strnlen (s : Text) (maxsize : Nat) : Nat := min s.length maxsize % 2 ^ 32

def isDigit (ch : UInt8) : Bool := 48 ≤ ch && ch ≤ 57

/-- Continues from `i`, and leaves the rest of the string. -/
def atoi : Nat → Text → Nat × Text
  | i, [] => (i, [])
  | i, c :: str =>
    if isDigit c then atoi ((i * 10 + (c.toNat - 48)) % 2 ^ 32) str else (i, c :: str)

/-- `buf` is the buffer from its last character to its first, as it is put out. -/
def outRev (buf : Text) (width : Nat) (flags : Flags) : Text :=
  let before := if flags.left = false ∧ flags.zeropad = false then width - buf.length else 0
  let after := if flags.left then width - (before + buf.length) else 0
  List.replicate before 32 ++ buf ++ List.replicate after 32

def padZeros (n : Nat) (buf : Text) : Text :=
  List.replicate (min n ntoaBufferSize - buf.length) 48 ++ buf

def push (c : UInt8) (buf : Text) : Text := if buf.length < ntoaBufferSize then c :: buf else buf

def handleHash (buf : Text) (base prec width : Nat) (flags : Flags) : Text :=
  let buf :=
    if flags.precision = false ∧ buf.length ≠ 0 ∧ (buf.length = prec ∨ buf.length = width) then
      if buf.length - 1 ≠ 0 ∧ base = 16 then buf.drop 2 else buf.drop 1
    else buf
  let buf :=
    if base = 16 ∧ flags.uppercase = false ∧ buf.length < ntoaBufferSize then 120 :: buf
    else if base = 16 ∧ flags.uppercase ∧ buf.length < ntoaBufferSize then 88 :: buf
    else if base = 2 ∧ buf.length < ntoaBufferSize then 98 :: buf
    else buf
  push 48 buf

def ntoaFormat (buf : Text) (negative : Bool) (base prec width : Nat) (flags : Flags) : Text :=
  let width :=
    if flags.left = false ∧ width ≠ 0 ∧ flags.zeropad ∧ (negative ∨ flags.plus ∨ flags.space) then
      width - 1
    else width
  let buf :=
    if flags.left then buf
    else
      let buf := padZeros prec buf
      if flags.zeropad then padZeros width buf else buf
  let buf := if flags.hash then handleHash buf base prec width flags else buf
  let buf :=
    if negative then push 45 buf
    else if flags.plus then push 43 buf
    else if flags.space then push 32 buf
    else buf
  outRev buf width flags

def digitChar (upper : Bool) (digit : Nat) : UInt8 :=
  UInt8.ofNat (if digit < 10 then 48 + digit else (if upper then 65 else 97) + digit - 10)

/-- The digits of the value in front of what is in the buffer, with `room` characters left. -/
def putDigits (upper : Bool) (base : Nat) : Nat → Nat → Text → Text
  | 0, _, buf => buf
  | room + 1, value, buf =>
    let buf := digitChar upper (value % base) :: buf
    if value / base ≠ 0 then putDigits upper base room (value / base) buf else buf

def ntoaLong (value : Nat) (negative : Bool) (base prec width : Nat) (flags : Flags) : Text :=
  let flags := if value = 0 then { flags with hash := false } else flags
  let buf :=
    if flags.precision = false ∨ value ≠ 0 then
      putDigits flags.uppercase base ntoaBufferSize value []
    else []
  ntoaFormat buf negative base prec width flags

def evalFlags : Text → Flags → Text × Flags
  | [], flags => ([], flags)
  | c :: format, flags =>
    if c = 48 then evalFlags format { flags with zeropad := true }
    else if c = 45 then evalFlags format { flags with left := true }
    else if c = 43 then evalFlags format { flags with plus := true }
    else if c = 32 then evalFlags format { flags with space := true }
    else if c = 35 then evalFlags format { flags with hash := true }
    else (c :: format, flags)

/-- Where the format stands between two fields of a directive. -/
structure Scan where
  format : Text
  flags : Flags
  width : Nat
  prec : Nat
  va : List Arg

/-- va_arg(va, int) -/
def vaInt : List Arg → Except Undefined (Int × List Arg)
  | .word w :: va => .ok (int w, va)
  | _ => .error .argument

def evalWidth (s : Scan) : Except Undefined Scan :=
  match s.format with
  | [] => .ok s
  | c :: format =>
    if isDigit c then
      let r := atoi 0 s.format
      .ok { s with width := r.1, format := r.2 }
    else if c = 42 then do
      let (w, va) ← vaInt s.va
      if w < 0 then
        return { s with
          format := format, flags := { s.flags with left := true }, width := w.natAbs, va := va }
      else return { s with format := format, width := w.toNat, va := va }
    else .ok s

def evalPrecision (s : Scan) : Except Undefined Scan :=
  match s.format with
  | [] => .ok s
  | c :: format =>
    if c = 46 then
      let s := { s with format := format, flags := { s.flags with precision := true } }
      match s.format with
      | [] => .ok s
      | c :: format =>
        if isDigit c then
          let r := atoi 0 s.format
          .ok { s with prec := r.1, format := r.2 }
        else if c = 42 then do
          let (prec, va) ← vaInt s.va
          return { s with format := format, prec := if prec > 0 then prec.toNat else 0, va := va }
        else .ok s
    else .ok s

def evalLength (format : Text) (flags : Flags) : Text × Flags :=
  match format with
  | [] => ([], flags)
  | c :: format =>
    if c = 108 then
      let flags := { flags with long := true }
      match format with
      | [] => ([], flags)
      | c :: rest => if c = 108 then (rest, { flags with longLong := true }) else (format, flags)
    else if c = 104 then
      let flags := { flags with short := true }
      match format with
      | [] => ([], flags)
      | c :: rest => if c = 104 then (rest, { flags with char := true }) else (format, flags)
    else if c = 106 ∨ c = 122 then (format, { flags with long := true })
    else (c :: format, flags)

/-- The conversion of d, i, u, x, X, o and b. A long long is neither converted nor taken from the
arguments. -/
def convertInteger (specifier : UInt8) (s : Scan) : Except Undefined (Text × List Arg) :=
  let base := if specifier = 120 ∨ specifier = 88 then 16 else if specifier = 111 then 8
    else if specifier = 98 then 2 else 10
  let isSigned := specifier = 105 ∨ specifier = 100
  let flags := { s.flags with
    hash := s.flags.hash && base != 10
    uppercase := s.flags.uppercase || specifier == 88
    plus := s.flags.plus && isSigned
    space := s.flags.space && isSigned
    zeropad := s.flags.zeropad && !s.flags.precision }
  if flags.longLong then .ok ([], s.va)
  else match s.va with
  | .word w :: va =>
    if isSigned then
      let value :=
        if flags.long then w.toInt
        else if flags.char then (w.setWidth 8).toNat
        else if flags.short then (w.setWidth 16).toInt
        else (w.setWidth 32).toInt
      .ok (ntoaLong value.natAbs (value < 0) base s.prec s.width flags, va)
    else
      let value :=
        if flags.long then w.toNat
        else if flags.char then (w.setWidth 8).toNat
        else if flags.short then (w.setWidth 16).toNat
        else (w.setWidth 32).toNat
      .ok (ntoaLong value false base s.prec s.width flags, va)
  | _ => .error .argument

def convertChar (s : Scan) : Except Undefined (Text × List Arg) :=
  match s.va with
  | .word w :: va =>
    let fill := List.replicate (s.width - 1) 32
    let c := UInt8.ofBitVec (w.setWidth 8)
    .ok (if s.flags.left then c :: fill else fill ++ [c], va)
  | _ => .error .argument

def convertString (s : Scan) : Except Undefined (Text × List Arg) :=
  match s.va with
  | .str p :: va =>
    let l := strnlen p (if s.prec ≠ 0 then s.prec else 2 ^ 64 - 1)
    let l := if s.flags.precision then (if l < s.prec then l else s.prec) else l
    let fill := List.replicate (s.width - l) 32
    let p := if s.flags.precision then p.take s.prec else p
    .ok (if s.flags.left then p ++ fill else fill ++ p, va)
  | _ => .error .argument

def convertPointer (s : Scan) : Except Undefined (Text × List Arg) :=
  match s.va with
  | .word w :: va =>
    let flags := { s.flags with zeropad := true, uppercase := true }
    .ok (ntoaLong w.toNat false 16 s.prec 16 flags, va)
  | _ => .error .argument

/-- What is put out for a directive, the rest of the format behind it, and of the arguments. -/
def directive (format : Text) (va : List Arg) : Except Undefined (Text × Text × List Arg) := do
  let (format, flags) := evalFlags format ⟨false, false, false, false, false, false, false, false,
    false, false, false⟩
  let s ← evalWidth ⟨format, flags, 0, 0, va⟩
  let s ← evalPrecision s
  let (format, flags) := evalLength s.format s.flags
  let s := { s with flags := flags }
  match format with
  | [] => .error .overrun
  | c :: format =>
    let (out, va) ←
      if c = 100 ∨ c = 105 ∨ c = 117 ∨ c = 120 ∨ c = 88 ∨ c = 111 ∨ c = 98 then convertInteger c s
      else if c = 99 then convertChar s
      else if c = 115 then convertString s
      else if c = 112 then convertPointer s
      else .ok ([c], s.va)
    return (out, format, va)

/-- The loop of _vsnprintf, with a number of rounds that is enough: each reads a character at
least. -/
def putOut : Nat → Text → List Arg → Except Undefined Text
  | 0, _, _ => .ok []
  | _ + 1, [], _ => .ok []
  | rounds + 1, c :: format, va =>
    if c ≠ 37 then do
      let rest ← putOut rounds format va
      return c :: rest
    else do
      let (out, format, va) ← directive format va
      let rest ← putOut rounds format va
      return out ++ rest

/-- The characters that are put out, without the terminator. -/
def vsnprintf (format : Text) (va : List Arg) : Except Undefined Text :=
  putOut format.length format va

def outBuffer (character : UInt8) (buffer : Nat → UInt8) (idx maxlen : Nat) : Nat → UInt8 :=
  if idx < maxlen then Function.update buffer idx character else buffer

/-- Puts the characters into the buffer from the index `idx` on, and then the terminator. -/
def intoBuffer (maxlen : Nat) : Nat → Text → (Nat → UInt8) → Nat → UInt8
  | idx, [], buffer =>
    outBuffer 0 buffer (if idx < maxlen then idx else (maxlen + (2 ^ 64 - 1)) % 2 ^ 64) maxlen
  | idx, c :: out, buffer => intoBuffer maxlen (idx + 1) out (outBuffer c buffer idx maxlen)

def snprintf (buffer : Nat → UInt8) (count : Nat) (format : Text) (va : List Arg) :
    Except Undefined ((Nat → UInt8) × Int) := do
  let out ← vsnprintf format va
  return (intoBuffer count 0 out buffer, (BitVec.ofNat 32 out.length).toInt)

end MultiZone.Printf
