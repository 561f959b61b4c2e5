import Mathlib.Data.List.Basic

/-! The current row of a VT100 terminal, as far as editing a line in it needs: the
cursor moves in the row, is saved and restored, and text is cleared and
overwritten. Anything else that is sent leaves the description. -/
namespace Editing

/-- Where the terminal is in an escape sequence. -/
inductive Mode where
  | ground
  | escape
  | csi (params : List UInt8)
  deriving DecidableEq

structure Terminal (w : Nat) where
  row : List UInt8
  width : row.length = w
  col : Fin w
  saved : Fin w
  mode : Mode

namespace Terminal

variable {w : Nat}

def escapeByte : UInt8 := 0x1b

def blank : UInt8 := ' '.toUInt8

def isPrintable (c : UInt8) : Bool := ' '.toUInt8 ≤ c && c ≤ '~'.toUInt8

/-- At the right margin the cursor stays. -/
def right (i : Fin w) : Fin w := ⟨min (i.val + 1) (w - 1), by have := i.isLt; omega⟩

def left (i : Fin w) : Fin w := ⟨i.val - 1, by have := i.isLt; omega⟩

def clearRight (t : Terminal w) : Terminal w :=
  { t with
    row := t.row.take t.col ++ List.replicate (w - t.col) blank
    width := by
      have := t.col.isLt
      simp only [List.length_append, List.length_take, List.length_replicate, t.width]
      omega }

def clearLine (t : Terminal w) : Terminal w :=
  { t with row := List.replicate w blank, width := List.length_replicate }

def overwrite (c : UInt8) (t : Terminal w) : Terminal w :=
  { t with
    row := t.row.set t.col c
    width := List.length_set.trans t.width
    col := right t.col }

def ground (c : UInt8) (t : Terminal w) : Option (Terminal w) :=
  if c = escapeByte then some { t with mode := .escape }
  else if c = '\r'.toUInt8 then some { t with col := ⟨0, t.col.pos⟩ }
  else if isPrintable c then some (t.overwrite c)
  else none

def escape (c : UInt8) (t : Terminal w) : Option (Terminal w) :=
  if c = '['.toUInt8 then some { t with mode := .csi [] }
  else if c = '7'.toUInt8 then some { t with saved := t.col, mode := .ground }
  else if c = '8'.toUInt8 then some { t with col := t.saved, mode := .ground }
  else none

def csi (params : List UInt8) (c : UInt8) (t : Terminal w) : Option (Terminal w) :=
  if '0'.toUInt8 ≤ c ∧ c ≤ '9'.toUInt8 then some { t with mode := .csi (params ++ [c]) }
  else if params = [] ∧ c = 'K'.toUInt8 then some { t.clearRight with mode := .ground }
  else if params = ['2'.toUInt8] ∧ c = 'K'.toUInt8 then
    some { t.clearLine with mode := .ground }
  else if params = [] ∧ c = 'C'.toUInt8 then some { t with col := right t.col, mode := .ground }
  else if params = [] ∧ c = 'D'.toUInt8 then some { t with col := left t.col, mode := .ground }
  else none

def feed (c : UInt8) (t : Terminal w) : Option (Terminal w) :=
  match t.mode with
  | .ground => t.ground c
  | .escape => t.escape c
  | .csi params => t.csi params c

def receive : List UInt8 → Terminal w → Option (Terminal w)
  | [], t => some t
  | c :: cs, t => (t.feed c).bind (receive cs)

theorem receive_append (a b : List UInt8) (t : Terminal w) :
    receive (a ++ b) t = (receive a t).bind (receive b) := by
  induction a generalizing t with
  | nil => rfl
  | cons c a ih =>
    simp only [List.cons_append, receive, Option.bind_assoc]
    congr
    funext u
    exact ih u

/-- The row is the text and nothing else, with the cursor at the column. -/
structure Shows (t : Terminal w) (text : List UInt8) (col : Nat) : Prop where
  ground : t.mode = .ground
  row : t.row = text ++ List.replicate (w - text.length) blank
  col : t.col.val = col

/-- Sent to the terminal the bytes are all understood, and leave it like this. -/
def Gives (t : Terminal w) (sent : List UInt8) (P : Terminal w → Prop) : Prop :=
  ∃ t', t.receive sent = some t' ∧ P t'

theorem Gives.append {t : Terminal w} {a b : List UInt8} {P Q : Terminal w → Prop}
    (first : t.Gives a P) (next : ∀ u, P u → u.Gives b Q) : t.Gives (a ++ b) Q := by
  obtain ⟨u, hu, hp⟩ := first
  obtain ⟨v, hv, hq⟩ := next u hp
  refine ⟨v, ?_, hq⟩
  rw [receive_append, hu]
  exact hv

section Commands

variable {t : Terminal w} {text a b : List UInt8} {col k : Nat}

theorem save_gives (h : t.Shows text col) :
    t.Gives [escapeByte, '7'.toUInt8] fun u => u.Shows text col ∧ u.saved.val = col := by
  refine ⟨{ t with saved := t.col, mode := .ground }, ?_, ⟨rfl, h.row, h.col⟩, h.col⟩
  simp +decide [receive, feed, h.ground, ground, escape]

theorem restore_gives (h : t.Shows text col) :
    t.Gives [escapeByte, '8'.toUInt8] fun u => u.Shows text t.saved := by
  refine ⟨{ t with col := t.saved, mode := .ground }, ?_, rfl, h.row, rfl⟩
  simp +decide [receive, feed, h.ground, ground, escape]

theorem clearRight_gives (h : t.Shows (a ++ b) a.length) :
    t.Gives [escapeByte, '['.toUInt8, 'K'.toUInt8] fun u =>
      u.Shows a a.length ∧ u.saved = t.saved := by
  refine ⟨{ t.clearRight with mode := .ground }, ?_, ⟨rfl, ?_, h.col⟩, rfl⟩
  · simp +decide [receive, feed, h.ground, ground, escape, csi, clearRight]
  · simp only [clearRight]
    rw [h.col, h.row, List.append_assoc, List.take_left]

theorem clearLine_gives (h : t.Shows text col) :
    t.Gives [escapeByte, '['.toUInt8, '2'.toUInt8, 'K'.toUInt8] fun u => u.Shows [] col := by
  refine ⟨{ t.clearLine with mode := .ground }, ?_, rfl, rfl, h.col⟩
  simp +decide [receive, feed, h.ground, ground, escape, csi, clearRight, clearLine]

theorem right_gives (h : t.Shows text col) (inside : col + 1 < w) :
    t.Gives [escapeByte, '['.toUInt8, 'C'.toUInt8] fun u => u.Shows text (col + 1) := by
  refine ⟨{ t with col := right t.col, mode := .ground }, ?_, rfl, h.row, ?_⟩
  · simp +decide [receive, feed, h.ground, ground, escape, csi]
  · have := h.col
    simp only [right]
    omega

theorem left_gives (h : t.Shows text col) :
    t.Gives [escapeByte, '['.toUInt8, 'D'.toUInt8] fun u => u.Shows text (col - 1) := by
  refine ⟨{ t with col := left t.col, mode := .ground }, ?_, rfl, h.row, ?_⟩
  · simp +decide [receive, feed, h.ground, ground, escape, csi]
  · simp only [left, h.col]

theorem return_gives (h : t.Shows text col) :
    t.Gives ['\r'.toUInt8] fun u => u.Shows text 0 := by
  refine ⟨{ t with col := ⟨0, t.col.pos⟩ }, ?_, h.ground, h.row, rfl⟩
  simp +decide [receive, feed, h.ground, ground]

theorem overwrite_shows {c : UInt8} (h : t.Shows a a.length) (fits : a.length + 1 < w) :
    (t.overwrite c).Shows (a ++ [c]) (a ++ [c]).length := by
  have col := h.col
  refine ⟨h.ground, ?_, ?_⟩
  · simp only [overwrite, h.row, col]
    rw [show w - a.length = w - (a ++ [c]).length + 1 by simp; omega, List.replicate_succ]
    simp
  · simp only [overwrite, right, List.length_append, List.length_singleton]
    omega

theorem write_gives (h : t.Shows a a.length) (printable : ∀ c ∈ text, isPrintable c)
    (fits : a.length + text.length < w) :
    t.Gives text fun u => u.Shows (a ++ text) (a ++ text).length ∧ u.saved = t.saved := by
  induction text generalizing t a with
  | nil => exact ⟨t, rfl, by rw [List.append_nil]; exact h, rfl⟩
  | cons c text ih =>
    have hc := printable c List.mem_cons_self
    rw [List.length_cons] at fits
    obtain ⟨u, hu, shows, saved⟩ := ih (overwrite_shows (c := c) h (by omega))
      (fun c' h' => printable c' (List.mem_cons_of_mem c h')) (by simp; omega)
    refine ⟨u, ?_, ?_, saved⟩
    · have other : c ≠ escapeByte ∧ c ≠ '\r'.toUInt8 := by
        constructor
        · rintro rfl
          exact absurd hc (by decide)
        · rintro rfl
          exact absurd hc (by decide)
      simp only [receive, feed, h.ground, ground, if_neg other.1, if_neg other.2, if_pos hc,
        Option.bind_some]
      exact hu
    · rw [← List.append_cons] at shows
      exact shows

theorem rewrite_gives (h : t.Shows (a ++ b) a.length) (printable : ∀ c ∈ text, isPrintable c)
    (fits : a.length + text.length < w) :
    t.Gives ([escapeByte, '7'.toUInt8] ++ ([escapeByte, '['.toUInt8, 'K'.toUInt8] ++ (text ++
      [escapeByte, '8'.toUInt8]))) fun u => u.Shows (a ++ text) a.length := by
  apply (save_gives h).append
  intro t₁ ⟨shows, saved⟩
  apply (clearRight_gives shows).append
  intro t₂ ⟨shows, kept⟩
  apply (write_gives shows printable fits).append
  intro t₃ ⟨shows, kept'⟩
  obtain ⟨t₄, received, shows⟩ := restore_gives shows
  rw [kept', kept, saved] at shows
  exact ⟨t₄, received, shows⟩

end Commands

end Terminal

end Editing
