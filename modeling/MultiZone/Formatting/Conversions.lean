import MultiZone.Formatting.Printf

/-! Formats with all the parts of a conversion, as the C standard defines what is written for
them. -/
namespace Formatting

inductive Flag where
  | minus
  | plus
  | space
  | hash
  | zero
  deriving DecidableEq, Repr

inductive Width where
  | none
  | given (n : Nat)
  | arg
  deriving DecidableEq, Repr

/-- A point alone stands for the precision 0. -/
inductive Precision where
  | none
  | point
  | given (n : Nat)
  | arg
  deriving DecidableEq, Repr

inductive Length where
  | none
  | hh
  | h
  | l
  | ll
  | j
  | z
  | t
  deriving DecidableEq, Repr

inductive Kind where
  | d
  | i
  | u
  | o
  | x
  | upperX
  | c
  | s
  deriving DecidableEq, Repr

structure Conversion where
  flags : List Flag
  width : Width
  precision : Precision
  length : Length
  kind : Kind
  deriving DecidableEq, Repr

inductive Piece where
  | literal (c : UInt8)
  | percent
  | conversion (c : Conversion)
  deriving DecidableEq, Repr

/-- An argument: a register, or the string that a pointer points to. -/
inductive Arg where
  | word (w : BitVec 64)
  | str (s : Text)
  deriving DecidableEq, Repr

section Writing

def Flag.byte : Flag → UInt8
  | minus => 45
  | plus => 43
  | space => 32
  | hash => 35
  | zero => 48

def Width.text : Width → Text
  | none => []
  | given n => digits n
  | arg => [42]

def Precision.text : Precision → Text
  | none => []
  | point => [46]
  | given n => 46 :: digits n
  | arg => [46, 42]

def Length.text : Length → Text
  | none => []
  | hh => [104, 104]
  | h => [104]
  | l => [108]
  | ll => [108, 108]
  | j => [106]
  | z => [122]
  | t => [116]

def Kind.byte : Kind → UInt8
  | d => 100
  | i => 105
  | u => 117
  | o => 111
  | x => 120
  | upperX => 88
  | c => 99
  | s => 115

def Conversion.text (c : Conversion) : Text :=
  c.flags.map Flag.byte ++ c.width.text ++ c.precision.text ++ c.length.text ++ [c.kind.byte]

def Piece.text : Piece → Text
  | literal c => [c]
  | percent => [Formatting.percent, Formatting.percent]
  | conversion c => Formatting.percent :: c.text

/-- A width does not begin with the digit 0, which is a flag, and a literal is not a percent
sign nor the end of the format. -/
def Piece.WellFormed : Piece → Prop
  | literal c => c ≠ 0 ∧ c ≠ Formatting.percent
  | percent => True
  | conversion c => c.width ≠ .given 0

instance : DecidablePred Piece.WellFormed
  | .literal c => inferInstanceAs (Decidable (c ≠ 0 ∧ c ≠ Formatting.percent))
  | .percent => inferInstanceAs (Decidable True)
  | .conversion c => inferInstanceAs (Decidable (c.width ≠ .given 0))

def formatText (ps : List Piece) : Text := ps.flatMap Piece.text

end Writing

section Meaning

/-- The flags, the width and the precision of a conversion, with what the arguments give. -/
structure Field where
  left : Bool
  plus : Bool
  space : Bool
  hash : Bool
  zero : Bool
  width : Nat
  precision : Option Nat
  deriving DecidableEq, Repr

def int (w : BitVec 64) : Int := (w.setWidth 32).toInt

/-- A negative width stands for the flag - and its amount. -/
def Width.value (args : List Arg) : Width → Option (Bool × Nat × List Arg)
  | none => some (false, 0, args)
  | given n => some (false, n, args)
  | arg => match args with
    | .word w :: args => some (decide (int w < 0), (int w).natAbs, args)
    | _ => Option.none

/-- A negative precision is none. -/
def Precision.value (args : List Arg) : Precision → Option (Option Nat × List Arg)
  | none => some (Option.none, args)
  | point => some (some 0, args)
  | given n => some (some n, args)
  | arg => match args with
    | .word w :: args => some (if int w < 0 then Option.none else some (int w).toNat, args)
    | _ => Option.none

def Conversion.field (c : Conversion) (args : List Arg) : Option (Field × List Arg) := do
  let (left, width, args) ← c.width.value args
  let (precision, args) ← c.precision.value args
  return (⟨left || .minus ∈ c.flags, .plus ∈ c.flags, .space ∈ c.flags, .hash ∈ c.flags,
    .zero ∈ c.flags, width, precision⟩, args)

def signedValue (w : BitVec 64) : Length → Int
  | .none => (w.setWidth 32).toInt
  | .hh => (w.setWidth 8).toInt
  | .h => (w.setWidth 16).toInt
  | _ => w.toInt

def unsignedValue (w : BitVec 64) : Length → Nat
  | .none => (w.setWidth 32).toNat
  | .hh => (w.setWidth 8).toNat
  | .h => (w.setWidth 16).toNat
  | _ => w.toNat

def digitByte (upper : Bool) (c : Char) : UInt8 :=
  UInt8.ofNat (if upper then c.toUpper else c).toNat

/-- The digits of a number, none of 0 where the precision is 0. -/
def magnitude (upper : Bool) (base n : Nat) (precision : Option Nat) : Text :=
  if n = 0 ∧ precision = some 0 then [] else (Nat.toDigits base n).map (digitByte upper)

def pad (f : Field) (body : Text) : Text :=
  let fill := List.replicate (f.width - body.length) 32
  if f.left then body ++ fill else fill ++ body

/-- The digits with what stands in front of them. -/
def number (f : Field) (lead body : Text) : Text :=
  let body := List.replicate (f.precision.getD 0 - body.length) 48 ++ body
  if f.zero ∧ f.left = false ∧ f.precision = none then
    lead ++ List.replicate (f.width - (lead.length + body.length)) 48 ++ body
  else pad f (lead ++ body)

def sign (f : Field) (n : Int) : Text :=
  if n < 0 then [45] else if f.plus then [43] else if f.space then [32] else []

def signed (f : Field) (n : Int) : Text :=
  number f (sign f n) (magnitude false 10 n.natAbs f.precision)

/-- In octal the flag # makes the first digit a zero, in hexadecimal it puts 0x in front. -/
def unsigned (f : Field) (upper : Bool) (base n : Nat) : Text :=
  let body := magnitude upper base n f.precision
  if f.hash ∧ base = 16 ∧ n ≠ 0 then number f [48, if upper then 88 else 120] body
  else if f.hash ∧ base = 8 ∧ body.head? ≠ some 48 ∧ f.precision.getD 0 ≤ body.length then
    number f [] (48 :: body)
  else number f [] body

def Conversion.written (c : Conversion) (f : Field) : Arg → Option Text
  | .word w => match c.kind with
    | .d => some (signed f (signedValue w c.length))
    | .i => some (signed f (signedValue w c.length))
    | .u => some (unsigned f false 10 (unsignedValue w c.length))
    | .o => some (unsigned f false 8 (unsignedValue w c.length))
    | .x => some (unsigned f false 16 (unsignedValue w c.length))
    | .upperX => some (unsigned f true 16 (unsignedValue w c.length))
    | .c => if c.length = .none then some (pad f [UInt8.ofBitVec (w.setWidth 8)]) else none
    | .s => none
  | .str s => match c.kind with
    | .s =>
      if c.length = .none then
        some (pad f (match f.precision with
          | none => s
          | some n => s.take n))
      else none
    | _ => none

/-- What is written for a format. There is nothing where the standard does not define it, for
want of an argument of the right type. -/
def render : List Piece → List Arg → Option Text
  | [], _ => some []
  | .literal c :: ps, args => (render ps args).map (c :: ·)
  | .percent :: ps, args => (render ps args).map (percent :: ·)
  | .conversion c :: ps, args => do
    let (f, args) ← c.field args
    match args with
    | [] => none
    | arg :: args =>
      let t ← c.written f arg
      let rest ← render ps args
      return t ++ rest

end Meaning

end Formatting
