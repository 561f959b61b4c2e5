import Mathlib.Data.List.TakeWhile

/-! Sixteen-byte messages and the C strings in them. -/
namespace MultiZone

abbrev Byte := UInt8

def cstring (mem : List Byte) : List Byte := mem.takeWhile (· ≠ 0)

def ascii (cs : List Char) : List Byte := cs.map fun c => UInt8.ofNat c.toNat

theorem cstring_append {mem : List Byte} (rest : List Byte)
    (ends : (cstring mem).length < mem.length) : cstring (mem ++ rest) = cstring mem := by
  unfold cstring at ends ⊢
  rw [List.takeWhile_append, if_neg (Nat.ne_of_lt ends)]

theorem cstring_terminated {cs : List Byte} (rest : List Byte) (noNul : 0 ∉ cs) :
    cstring (cs ++ 0 :: rest) = cs := by
  unfold cstring
  rw [List.takeWhile_append_of_pos]
  · simp
  · intro c hc
    have ne : c ≠ 0 := fun h => noNul (h ▸ hc)
    simpa using ne

theorem cstring_eq_self {mem : List Byte} : cstring mem = mem ↔ 0 ∉ mem := by
  rw [cstring, List.takeWhile_eq_self_iff]
  constructor
  · intro all none
    have ne := all 0 none
    simp at ne
  · intro noNul c hc
    have ne : c ≠ 0 := fun zero => noNul (zero ▸ hc)
    simpa using ne

theorem cstring_ends {mem : List Byte} : (cstring mem).length < mem.length ↔ 0 ∈ mem := by
  have front : cstring mem <+: mem := List.takeWhile_prefix _
  rw [← Decidable.not_iff_not, ← cstring_eq_self]
  constructor
  · intro long
    exact front.eq_of_length_le (Nat.le_of_not_lt long)
  · intro same
    rw [same]
    exact Nat.lt_irrefl _

structure Message where
  bytes : List Byte
  size : bytes.length = 16
  deriving DecidableEq

namespace Message

def zero : Message := ⟨List.replicate 16 0, rfl⟩

/-- A literal in a 16-byte array: cut at 16 bytes, filled up with NULs. -/
def ofText (text : List Byte) : Message :=
  ⟨(text ++ List.replicate 16 0).take 16, by simp⟩

def first (m : Message) : Byte := m.bytes.headD 0

def clear (m : Message) : Message :=
  ⟨0 :: m.bytes.tail, by rw [List.length_cons, List.length_tail, m.size]⟩

/-- `strcmp(text, msg) == 0` for a literal shorter than the message. -/
def is (m : Message) (text : List Byte) : Bool := cstring m.bytes == text

theorem eq_of_bytes {m n : Message} (same : m.bytes = n.bytes) : m = n := by
  cases m
  cases n
  cases same
  rfl

theorem ofText_full {cs : List Byte} (long : 16 ≤ cs.length) :
    (ofText cs).bytes = cs.take 16 :=
  List.take_append_of_le_length long

theorem ofText_last {cs : List Byte} (short : cs.length < 16) :
    (ofText cs).bytes = cs ++ 0 :: List.replicate (15 - cs.length) 0 := by
  change (cs ++ List.replicate 16 0).take 16 = _
  rw [List.take_append, List.take_of_length_le short.le, List.take_replicate,
    ← List.replicate_succ]
  congr 2
  omega

@[simp] theorem zero_first : zero.first = 0 := rfl

@[simp] theorem clear_first (m : Message) : m.clear.first = 0 := rfl

end Message

end MultiZone
