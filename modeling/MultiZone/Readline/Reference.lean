import MultiZone.Editing.Zipper
import MultiZone.Transition.Machine
import MultiZone.Readline.Strings

/-! A reference line editor: a line with a cursor, the bytes of an escape sequence
that is not complete, and the lines entered before, latest first. -/
namespace MultiZone.Readline
open Editing Transition

abbrev Printable := { c : Byte // ch ' ' ≤ c ∧ c ≤ ch '~' }

def bytes (l : List Printable) : List Byte := l.map Subtype.val

/-- A line that was entered: neither empty nor too long. -/
structure Entry where
  text : List Printable
  nonempty : text ≠ []
  short : text.length ≤ 32
  deriving DecidableEq

structure Reference where
  text : Zipper Printable 32
  /-- The bytes of the escape sequence so far. -/
  pending : List Byte
  history : List Entry
  few : history.length ≤ 8
  /-- The number of the entry that was recalled last; 0 when none was. -/
  selected : Nat
  valid : selected ≤ history.length
  eol : Bool

inductive Action where
  | delete
  | right
  | left
  | older
  | newer
  deriving DecidableEq

def escapeByte : Byte := ch '\x1b'

def sequences : List (List Byte × Action) :=
  [([escapeByte, ch '[', ch '3', ch '~'], .delete),
    ([escapeByte, ch '[', ch 'C'], .right),
    ([escapeByte, ch '[', ch 'D'], .left),
    ([escapeByte, ch '[', ch 'A'], .older),
    ([escapeByte, ch '[', ch 'B'], .newer)]

/-- Latest first. A line that is the latest already is not stored again. -/
def remember (e : Entry) (history : List Entry) : List Entry :=
  if history.head? = some e then history else (e :: history).take 8

theorem remember_length (e : Entry) {history : List Entry} (few : history.length ≤ 8) :
    (remember e history).length ≤ 8 := by
  unfold remember
  split
  · exact few
  · exact List.length_take_le _ _

def trim (l : List Printable) : List Printable :=
  (l.rdropWhile fun c => isSpace c.val).dropWhile fun c => isSpace c.val

/-- What is left on the right is not blank, as it does not end in a space. -/
theorem trim_eq_nil {l : List Printable} :
    trim l = [] ↔ l.rdropWhile (fun c => isSpace c.val) = [] := by
  constructor
  · intro blank
    by_contra more
    exact List.rdropWhile_last_not _ l more
      (List.dropWhile_eq_nil_iff.mp blank _ (List.getLast_mem more))
  · intro blank
    rw [trim, blank]
    rfl

theorem trim_blank {l : List Printable} : trim l = [] ↔ ∀ c ∈ l, c.val = ch ' ' := by
  rw [trim_eq_nil, List.rdropWhile_eq_nil_iff]
  simp only [isSpace, decide_eq_true_eq]

theorem trim_length (l : List Printable) : (trim l).length ≤ l.length :=
  ((List.dropWhile_suffix _).length_le).trans (List.rdropWhile_prefix _ _).length_le

namespace Reference

def initial : Reference where
  text := .empty
  pending := []
  history := []
  few := Nat.zero_le 8
  selected := 0
  valid := Nat.zero_le 0
  eol := false

def select (r : Reference) (i : Nat) (inside : i < r.history.length) : Reference :=
  { r with
    text := .atEnd (r.history.get ⟨i, inside⟩).text (r.history.get ⟨i, inside⟩).short
    selected := i + 1
    valid := inside }

def act (r : Reference) : Action → Reference
  | .delete => { r with text := r.text.delete }
  | .right => { r with text := r.text.moveRight }
  | .left => { r with text := r.text.moveLeft }
  | .older => if h : r.selected < r.history.length then r.select r.selected h else r
  | .newer =>
    if h : 1 < r.selected then
      r.select (r.selected - 2) (by have := r.valid; omega)
    else r

/-- A byte behind the escape byte either completes one of the sequences, or may
still lead to one, or is dropped and ends the sequence. -/
def escape (c : Byte) (r : Reference) : Reference :=
  match sequences.lookup (r.pending ++ [c]) with
  | some action => { r with pending := [] }.act action
  | none =>
    if sequences.any fun s => (r.pending ++ [c]).isPrefixOf s.1 then
      { r with pending := r.pending ++ [c] }
    else { r with pending := [] }

def edit (c : Byte) (r : Reference) : Reference :=
  if h : ch ' ' ≤ c ∧ c ≤ ch '~' then { r with text := r.text.insert ⟨c, h⟩ }
  else if c = ch '\x08' ∨ c = ch '\x7f' then { r with text := r.text.backspace }
  else r

/-- The trimmed line; not defined on a line of nothing but spaces. -/
def enter (r : Reference) : Option Reference :=
  if nonempty : trim r.text.line ≠ [] then
    have short := (trim_length r.text.line).trans r.text.line_length
    some {
      text := .atStart (trim r.text.line) short
      pending := []
      history := remember ⟨trim r.text.line, nonempty, short⟩ r.history
      few := remember_length _ r.few
      selected := 0
      valid := Nat.zero_le _
      eol := true }
  else none

def press (c : Byte) (r : Reference) : Option Reference :=
  if c = escapeByte then some { r with pending := [escapeByte] }
  else if c = ch '\r' then r.enter
  else if r.pending ≠ [] then some (r.escape c)
  else some (r.edit c)

/-- Only a carriage return on a line of spaces is not defined. -/
theorem press_eq_none {r : Reference} {c : Byte} :
    r.press c = none ↔ c = ch '\r' ∧ ∀ b ∈ r.text.line, b.val = ch ' ' := by
  have blank : r.enter = none ↔ ∀ b ∈ r.text.line, b.val = ch ' ' := by
    rw [← trim_blank]
    simp [enter]
  unfold press
  by_cases hesc : c = escapeByte
  · rw [if_pos hesc]
    constructor
    · intro none
      contradiction
    · rintro ⟨hcr, _⟩
      exact absurd (hesc.symm.trans hcr) (by decide)
  · rw [if_neg hesc]
    by_cases hcr : c = ch '\r'
    · rw [if_pos hcr, blank]
      exact ⟨fun spaces => ⟨hcr, spaces⟩, fun h => h.2⟩
    · rw [if_neg hcr]
      constructor
      · intro none
        split at none <;> contradiction
      · intro h
        exact absurd h.1 hcr

end Reference

/-- What happens: a byte arrives, or the caller is done with a completed line, in
which it may have put NULs. -/
inductive Label where
  | key (c : Byte)
  | finish (nuls : List Nat)

def reference : Machine Reference Label where
  initial := .initial
  step r label :=
    match label with
    | .key c => if r.eol then none else r.press c
    | .finish _ => if r.eol then some { r with text := .empty, eol := false } else none

/-- readline and its caller; eol is what the last call returned. -/
structure Caller where
  editor : Editor
  eol : Bool

def editor : Machine Caller Label where
  initial := ⟨.initial, false⟩
  step s label :=
    match label with
    | .key c =>
      if s.eol then none
      else match readline c s.editor with
        | .ok (eol, editor, _) => some ⟨editor, eol⟩
        | .error _ => none
    | .finish nuls =>
      if s.eol then
        let inputline := nuls.foldl (fun m i => m.set i 0) s.editor.inputline
        some ⟨{ s.editor with inputline := inputline.set 0 0 }, false⟩
      else none

end MultiZone.Readline
