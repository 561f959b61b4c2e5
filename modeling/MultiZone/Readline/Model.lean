import MultiZone.Message
import Mathlib.Algebra.Group.Nat.Defs

/-! The line editor of zone 2 and of harts 1 to 3: what readline does with one
received character. The applications differ only in how they print. -/
namespace MultiZone.Readline

inductive Fault where
  | outOfBounds
  | unterminated
  | outOfFuel
  deriving DecidableEq

section Strings

def get (m : List Byte) (i : Nat) : Except Fault Byte :=
  match m[i]? with
  | some b => .ok b
  | none => .error .outOfBounds

def put (m : List Byte) (i : Nat) (b : Byte) : Except Fault (List Byte) :=
  if i < m.length then .ok (m.set i b) else .error .outOfBounds

def strlen (m : List Byte) : Except Fault Nat :=
  if 0 ∈ m then .ok (cstring m).length else .error .unterminated

def strcpy (dst src : List Byte) : Except Fault (List Byte) :=
  if 0 ∈ src then
    if (cstring src).length < dst.length then
      .ok (cstring src ++ 0 :: dst.drop ((cstring src).length + 1))
    else .error .outOfBounds
  else .error .unterminated

/-- strcmp(a, b) == 0. -/
def strcmp (a b : List Byte) : Except Fault Bool :=
  if 0 ∈ a ∧ 0 ∈ b then .ok (cstring a = cstring b) else .error .unterminated

/-- n - 1 as a size_t. -/
def pred : Nat → Nat
  | 0 => 2 ^ 64 - 1
  | n + 1 => n

def ch (c : Char) : Byte := UInt8.ofNat c.toNat

end Strings

section Loops

/-- for (size_t i=p; i<strlen(m); i++) m[i]=m[i+1]; -/
def shiftLeft : Nat → Nat → List Byte → Except Fault (List Byte)
  | 0, _, _ => .error .outOfFuel
  | fuel + 1, i, m => do
    let n ← strlen m
    if i < n then
      let b ← get m (i + 1)
      let m ← put m i b
      shiftLeft fuel (i + 1) m
    else .ok m

/-- for (size_t i=...; i > p; i--) m[i]=m[i-1]; -/
def makeRoom (p : Nat) : Nat → List Byte → Except Fault (List Byte)
  | 0, m => .ok m
  | i + 1, m =>
    if i + 1 > p then do
      let b ← get m i
      let m ← put m (i + 1) b
      makeRoom p i m
    else .ok m

/-- while (m[strlen(m)-1]==' ') m[strlen(m)-1]='\0'; -/
def trimRight : Nat → List Byte → Except Fault (List Byte)
  | 0, _ => .error .outOfFuel
  | fuel + 1, m => do
    let n ← strlen m
    let b ← get m (pred n)
    if b = ch ' ' then
      let m ← put m (pred n) 0
      trimRight fuel m
    else .ok m

/-- while (m[0]==' ') for (size_t i = 0; i < strlen(m); i++) m[i]=m[i+1]; -/
def trimLeft : Nat → List Byte → Except Fault (List Byte)
  | 0, _ => .error .outOfFuel
  | fuel + 1, m => do
    let b ← get m 0
    if b = ch ' ' then
      let m ← shiftLeft (m.length + 1) 0 m
      trimLeft fuel m
    else .ok m

def row (history : List (List Byte)) (i : Int) : Except Fault (List Byte) :=
  if i < 0 then .error .outOfBounds
  else match history[i.toNat]? with
    | some m => .ok m
    | none => .error .outOfBounds

/-- for (int i = ...; i > 0; i--) strcpy(history[i], history[i-1]); -/
def shiftRows : Nat → List (List Byte) → Except Fault (List (List Byte))
  | 0, history => .ok history
  | i + 1, history => do
    let src ← row history i
    let dst ← row history (i + 1)
    let m ← strcpy dst src
    shiftRows i (history.set (i + 1) m)

end Loops

/-- inputline and the static variables of readline. -/
structure Editor where
  inputline : List Byte
  p : Nat
  esc : Nat
  history : List (List Byte)
  h : Int

def Editor.initial : Editor where
  inputline := List.replicate 33 0
  p := 0
  esc := 0
  history := List.replicate 8 (List.replicate 33 0)
  h := -1

/-- What is printed: the strings of the source, and text taken from inputline. -/
inductive Echo where
  | saveCursor
  | restoreCursor
  | clearRight
  | clearLine
  | cursorRight
  | cursorLeft
  | prompt
  | newline
  | input (text : List Byte)
  deriving DecidableEq

abbrev Outcome := Except Fault (Editor × List Echo)

/-- The text from the cursor on: &inputline[p], strlen(inputline)-p. -/
def fromCursor (inputline : List Byte) (p : Nat) : Except Fault (List Byte) := do
  let n ← strlen inputline
  if p ≤ n then .ok ((cstring inputline).drop p) else .error .outOfBounds

def delKey (s : Editor) : Outcome := do
  let inputline ← shiftLeft (s.inputline.length + 1) s.p s.inputline
  let text ← fromCursor inputline s.p
  .ok ({ s with inputline := inputline, esc := 0 },
    [.saveCursor, .clearRight, .input text, .restoreCursor])

def rightArrow (s : Editor) : Outcome := do
  let n ← strlen s.inputline
  if s.p < n then .ok ({ s with esc := 0, p := s.p + 1 }, [.cursorRight])
  else .ok ({ s with esc := 0 }, [])

def leftArrow (s : Editor) : Outcome :=
  if s.p > 0 then .ok ({ s with esc := 0, p := s.p - 1 }, [.cursorLeft])
  else .ok ({ s with esc := 0 }, [])

/-- The line is replaced by an entry of the history, if that is not empty. -/
def recallLine (h : Int) (s : Editor) : Outcome := do
  let entry ← row s.history h
  let n ← strlen entry
  if n > 0 then
    let inputline ← strcpy s.inputline entry
    let p ← strlen inputline
    .ok ({ s with inputline := inputline, p := p, esc := 0, h := h },
      [.clearLine, .prompt, .input (cstring inputline)])
  else .ok ({ s with esc := 0 }, [])

def upArrow (s : Editor) : Outcome :=
  if s.h < 8 - 1 then recallLine (s.h + 1) s else .ok ({ s with esc := 0 }, [])

def downArrow (s : Editor) : Outcome :=
  if s.h > 0 then recallLine (s.h - 1) s else .ok ({ s with esc := 0 }, [])

def backspace (s : Editor) : Outcome := do
  let inputline ← shiftLeft (s.inputline.length + 1) (s.p - 1) s.inputline
  let text ← fromCursor inputline (s.p - 1)
  .ok ({ s with inputline := inputline, p := s.p - 1 },
    [.cursorLeft, .saveCursor, .clearRight, .input text, .restoreCursor])

def insert (c : Byte) (s : Editor) : Outcome := do
  let inputline ← makeRoom s.p 31 s.inputline
  let inputline ← put inputline s.p c
  let text ← fromCursor inputline s.p
  .ok ({ s with inputline := inputline, p := s.p + 1 },
    [.saveCursor, .clearRight, .input text, .restoreCursor, .cursorRight])

def saveLine (inputline : List Byte) (history : List (List Byte)) :
    Except Fault (List (List Byte)) := do
  let n ← strlen inputline
  if n > 0 then
    let last ← row history 0
    let same ← strcmp inputline last
    if same then .ok history
    else
      let history ← shiftRows 7 history
      let dst ← row history 0
      let m ← strcpy dst inputline
      .ok (history.set 0 m)
  else .ok history

def carriageReturn (s : Editor) : Outcome := do
  let inputline ← trimRight (s.inputline.length + 1) s.inputline
  let inputline ← trimLeft (inputline.length + 1) inputline
  let history ← saveLine inputline s.history
  .ok (⟨inputline, 0, 0, history, -1⟩, [.newline])

/-- One character; the flag is eol. -/
def readline (c : Byte) (s : Editor) : Except Fault (Bool × Editor × List Echo) :=
  if c = ch '\x1b' then .ok (false, { s with esc := 1 }, [])
  else if s.esc = 1 ∧ c = ch '[' then .ok (false, { s with esc := 2 }, [])
  else if s.esc = 2 ∧ c = ch '3' then .ok (false, { s with esc := 3 }, [])
  else if s.esc = 3 ∧ c = ch '~' then (delKey s).map (Prod.mk false)
  else if s.esc = 2 ∧ c = ch 'C' then (rightArrow s).map (Prod.mk false)
  else if s.esc = 2 ∧ c = ch 'D' then (leftArrow s).map (Prod.mk false)
  else if s.esc = 2 ∧ c = ch 'A' then (upArrow s).map (Prod.mk false)
  else if s.esc = 2 ∧ c = ch 'B' then (downArrow s).map (Prod.mk false)
  else if (c = ch '\x08' ∨ c = ch '\x7f') ∧ s.p > 0 ∧ s.esc = 0 then
    (backspace s).map (Prod.mk false)
  else if c ≥ ch ' ' ∧ c ≤ ch '~' ∧ s.p < 33 - 1 ∧ s.esc = 0 then
    (insert c s).map (Prod.mk false)
  else if c = ch '\r' then (carriageReturn s).map (Prod.mk true)
  else .ok (false, { s with esc := 0 }, [])

end MultiZone.Readline
