import MultiZone.Reassembly
import MultiZone.Memory.Region
import MultiZone.Transition.Preemption

/-! The inboxes of zone 2 as they lie in memory. msi_isr stores blocks at addresses
that it computes from the lengths, and msg_handler reads strings from where they
start; between two statements of the latter nothing comes in, as it masks msi_isr. -/
namespace MultiZone.Accumulation
open Transition Reassembly

inductive Fault where
  | outOfBounds
  | unterminated
  deriving DecidableEq

/-- The array of eight struct Inbox, byte by byte from its start; the lengths, which
stand behind the 64 bytes of msg, are numbers here. The last field is the history. -/
structure Ram where
  bytes : Nat → Byte
  len : Fin 8 → Nat
  acted : Fin 8 → List (List Byte)

def Ram.initial : Ram := ⟨fun _ => 0, fun _ => 0, fun _ => []⟩

/-- inbox[zone-1].msg; a struct Inbox has 68 bytes. -/
def address (zone : Fin 8) : Nat := 68 * zone.val

namespace Ram

/-- memcpy( (char*)(in->msg+in->len), msg, MSG_SIZE) -/
def memcpy (ram : Ram) (zone : Fin 8) (len : Nat) (msg : Message) : Except Fault Ram :=
  if len + 16 ≤ inboxSize then
    .ok { ram with bytes := Memory.store ram.bytes (address zone + len) msg.bytes }
  else .error .outOfBounds

def receive (recv : Fin 8 → Option Message) (ram : Ram) (zone : Fin 8) : Except Fault Ram :=
  match recv zone with
  | none => .ok ram
  | some msg =>
    let len := if ram.len zone ≥ inboxSize then 0 else ram.len zone
    (ram.memcpy zone len msg).map fun ram =>
      { ram with len := Function.update ram.len zone (len + 16) }

def window (ram : Ram) (zone : Fin 8) (n : Nat) : List Byte :=
  Memory.window ram.bytes (address zone) n

/-- strnlen(msg, in->len) -/
def strnlen (ram : Ram) (zone : Fin 8) : Except Fault Nat :=
  if ram.len zone ≤ inboxSize then
    .ok (Reassembly.strnlen (ram.window zone inboxSize) (ram.len zone))
  else .error .outOfBounds

def string (ram : Ram) (zone : Fin 8) : Except Fault (List Byte) :=
  if 0 ∈ ram.window zone inboxSize then .ok (cstring (ram.window zone inboxSize))
  else .error .unterminated

end Ram

def msiIsr (recv : Fin 8 → Option Message) (ram : Ram) : Except Fault Ram :=
  (List.finRange 8).foldlM (Ram.receive recv) ram

/-- Outside of msg_handler, or in the round of its loop for a zone. -/
inductive Pc where
  | outside
  | visit (zone : Fin 8)
  deriving DecidableEq

def visitFrom (i : Nat) : Pc := if h : i < 8 then .visit ⟨i, h⟩ else .outside

def afterVisit (zone : Fin 8) : Pc := visitFrom (zone.val + 1)

/-- One round of msg_handler. A restart does not return, and clears the bss. -/
def Ram.handle (ram : Ram) (zone : Fin 8) : Except Fault (Pc × Ram) := do
  let len ← ram.strnlen zone
  if len > 0 ∧ len ≠ ram.len zone then
    let msg ← ram.string zone
    let acted := Function.update ram.acted zone (ram.acted zone ++ [msg])
    if msg = restartText then .ok (.outside, { Ram.initial with acted := acted })
    else .ok (afterVisit zone,
      { ram with len := Function.update ram.len zone 0, acted := acted })
  else .ok (afterVisit zone, ram)

abbrev Mem := Except Fault Ram

def statement (_ : Unit) (pc : Pc) (mem : Mem) : Option (Point Pc Mem) :=
  match mem, pc with
  | .error _, _ => none
  | .ok ram, .outside => some ⟨visitFrom 0, .ok ram⟩
  | .ok ram, .visit zone =>
    match ram.handle zone with
    | .ok (pc, ram) => some ⟨pc, .ok ram⟩
    | .error fault => some ⟨.outside, .error fault⟩

def interrupt (recv : Fin 8 → Option Message) (pc : Pc) (mem : Mem) : Option Mem :=
  match mem, pc with
  | .ok ram, .outside => some (msiIsr recv ram)
  | _, _ => none

def program : Program Pc Mem Unit (Fin 8 → Option Message) where
  entry := .outside
  memory := .ok .initial
  statement := statement
  interrupt := interrupt

end MultiZone.Accumulation
