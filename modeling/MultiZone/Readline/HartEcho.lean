import MultiZone.Readline.Refinement
import MultiZone.Formatting.Printf

/-! What harts 1 to 3 print while a line is edited. They pass the text of the line to
mss_printf as its format. -/
namespace MultiZone.Readline
open Editing Transition Formatting

/-- mss_printf; mss_uart_tx_buf has 80 bytes. -/
def mssPrintf (text : List Byte) (args : List Int) : Option (List Byte) := snprintf 80 text args

/-- The bytes that go to the UART; none where the format has no meaning. -/
def transmit (hartid : Int) : Echo → Option (List Byte)
  | .saveCursor => mssPrintf (ascii ['\x1b', '7']) []
  | .restoreCursor => mssPrintf (ascii ['\x1b', '8']) []
  | .clearRight => mssPrintf (ascii ['\x1b', '[', 'K']) []
  | .clearLine => mssPrintf (ascii ['\x1b', '[', '2', 'K']) []
  | .cursorRight => mssPrintf (ascii ['\x1b', '[', 'C']) []
  | .cursorLeft => mssPrintf (ascii ['\x1b', '[', 'D']) []
  | .prompt => mssPrintf (ascii ['\r', 'H', '%', 'd', ' ', '>', ' ']) [hartid]
  | .newline => mssPrintf (ascii ['\n', '\r']) []
  | .input text => mssPrintf text []

/-- The texts of the line that are printed. -/
def inputs (echo : List Echo) : List (List Byte) :=
  echo.filterMap fun
    | .input text => some text
    | _ => none

/-- What is printed of the line is what stands there. -/
def Literal (hartid : Int) (echo : List Echo) : Prop :=
  ∀ text ∈ inputs echo, transmit hartid (.input text) = some text

/-- An entry of the history, if it is not empty. -/
def entry (history : List (List Byte)) (i : Int) : Option (List Byte) :=
  match row history i with
  | .ok m => if cstring m = [] then none else some (cstring m)
  | .error _ => none

/-- What a key draws of the line: the rest of it from the cursor on without the
character that is deleted, or with the one that is typed, or all of a recalled line. -/
def redrawn (c : Byte) (s : Editor) : Option (List Byte) :=
  if s.esc = 3 ∧ c = ch '~' then some ((cstring s.inputline).drop (s.p + 1))
  else if s.esc = 2 ∧ c = ch 'A' then entry s.history (s.h + 1)
  else if s.esc = 2 ∧ c = ch 'B' then entry s.history (s.h - 1)
  else if (c = ch '\x08' ∨ c = ch '\x7f') ∧ s.p > 0 ∧ s.esc = 0 then
    some ((cstring s.inputline).drop s.p)
  else if ch ' ' ≤ c ∧ c ≤ ch '~' ∧ s.p < 32 ∧ s.esc = 0 then
    some (c :: ((cstring s.inputline).drop s.p).take (31 - s.p))
  else none

/-- The outcome draws this of the line, and nothing else. -/
def Draws (text : Option (List Byte)) (out : Outcome) : Prop :=
  ∃ s' echo, out = .ok (s', echo) ∧ inputs echo = text.toList

section Draws

variable {s : Editor} {r : Reference} {c : Byte}

theorem inputs_redraw (z : Zipper Printable 32) : inputs (redraw z) = [bytes z.right] := rfl

theorem drop_cursor (h : Represents s r) :
    (cstring s.inputline).drop s.p = bytes r.text.right := by
  have position : s.p = (bytes r.text.left.reverse).length := by
    simp [bytes, h.edits.cursor, Zipper.position]
  rw [cstring_eq h.edits.holds, bytes_line, position, List.drop_left]

theorem delKey_draws (h : Represents s r) :
    Draws (some ((cstring s.inputline).drop (s.p + 1))) (delKey s) := by
  obtain ⟨m, deletes, -⟩ := delKey_eq h.edits
  refine ⟨_, _, deletes, ?_⟩
  rw [inputs_redraw, Zipper.right_delete, ← List.drop_drop, drop_cursor h, bytes, List.map_drop]
  rfl

theorem backspace_draws (h : Represents s r) (more : 0 < s.p) :
    Draws (some ((cstring s.inputline).drop s.p)) (backspace s) := by
  obtain ⟨m, erases, -⟩ := backspace_eq h.edits (h.edits.cursor ▸ more)
  refine ⟨_, _, erases, ?_⟩
  rw [drop_cursor h, ← Zipper.right_backspace]
  rfl

theorem insert_draws (h : Represents s r) (printable : ch ' ' ≤ c ∧ c ≤ ch '~') (room : s.p < 32) :
    Draws (some (c :: ((cstring s.inputline).drop s.p).take (31 - s.p))) (insert c s) := by
  have cursor := h.edits.cursor
  obtain ⟨m, inserts, -⟩ := insert_line ⟨c, printable⟩ h.edits room
  refine ⟨_, _, inserts, ?_⟩
  have right := Zipper.right_moveLeft_insert (⟨c, printable⟩ : Printable) (cursor ▸ room)
  rw [drop_cursor h, cursor]
  change [bytes _] = [c :: (bytes r.text.right).take (31 - r.text.position)]
  rw [right, bytes, List.map_cons, List.map_take]
  rfl

theorem entry_inside (h : Represents s r) {i : Nat} (hi : i < 8) :
    entry s.history i = if bytes (recalled r.history i) = [] then none
      else some (bytes (recalled r.history i)) := by
  obtain ⟨m, hm, holds⟩ := row_eq h.history hi
  simp only [entry, hm, cstring_eq holds]

theorem entry_outside (h : Represents s r) {i : Int} (out : i < 0 ∨ 8 ≤ i) :
    entry s.history i = none := by
  unfold entry row
  rcases out with low | high
  · rw [if_pos low]
  · have size := h.history.1
    rw [if_neg (by omega), List.getElem?_eq_none (by omega)]

theorem recallLine_draws (h : Represents s r) {i : Nat} (hi : i < 8) :
    Draws (entry s.history i) (recallLine i s) := by
  rw [entry_inside h hi]
  rcases Nat.lt_or_ge i r.history.length with inside | out
  · obtain ⟨m, recalls, -⟩ := recall_eq h.edits h.history r.few inside
    have nonempty : bytes (recalled r.history i) ≠ [] := by
      rw [recalled_get inside]
      exact fun none => (r.history.get ⟨i, inside⟩).nonempty (List.map_eq_nil_iff.mp none)
    rw [if_neg nonempty, recalled_get inside]
    exact ⟨_, _, recalls, rfl⟩
  · rw [recalled_nil out]
    exact ⟨_, _, recall_none h.history hi out, rfl⟩

theorem upArrow_draws (h : Represents s r) : Draws (entry s.history (s.h + 1)) (upArrow s) := by
  have selected := h.selected
  unfold upArrow
  split
  · rw [selected]
    exact recallLine_draws h (by omega)
  · rw [entry_outside h (by omega)]
    exact ⟨_, _, rfl, rfl⟩

theorem downArrow_draws (h : Represents s r) : Draws (entry s.history (s.h - 1)) (downArrow s) := by
  have selected := h.selected
  have valid := r.valid
  have few := r.few
  unfold downArrow
  split
  · rw [show s.h - 1 = ((r.selected - 2 : Nat) : Int) by omega]
    exact recallLine_draws h (by omega)
  · rw [entry_outside h (by omega)]
    exact ⟨_, _, rfl, rfl⟩

theorem rightArrow_draws (h : Represents s r) : Draws none (rightArrow s) := by
  simp only [rightArrow, bind, Except.bind, strlen_eq h.edits.holds]
  split
  · exact ⟨_, _, rfl, rfl⟩
  · exact ⟨_, _, rfl, rfl⟩

theorem leftArrow_draws (s : Editor) : Draws none (leftArrow s) := by
  unfold leftArrow
  split
  · exact ⟨_, _, rfl, rfl⟩
  · exact ⟨_, _, rfl, rfl⟩

theorem quiet_draws {t : Editor} (reads : readline c s = .ok (false, t, []))
    (nothing : redrawn c s = none) :
    ∃ out, readline c s = out.map (Prod.mk false) ∧ Draws (redrawn c s) out := by
  refine ⟨.ok (t, []), reads, ?_⟩
  rw [nothing]
  exact ⟨_, _, rfl, rfl⟩

theorem typed_draws (h : Represents s r) (calm : s.esc = 0) (hesc : c ≠ escapeByte)
    (hcr : c ≠ ch '\r') :
    ∃ out, readline c s = out.map (Prod.mk false) ∧ Draws (redrawn c s) out := by
  by_cases erase : (c = ch '\x08' ∨ c = ch '\x7f') ∧ 0 < s.p
  · refine ⟨backspace s, readline_backspace calm erase.1 erase.2, ?_⟩
    simpa [redrawn, calm, erase] using backspace_draws h erase.2
  by_cases room : ch ' ' ≤ c ∧ c ≤ ch '~' ∧ s.p < 32
  · refine ⟨insert c s, readline_insert calm ⟨room.1, room.2.1⟩ room.2.2, ?_⟩
    simpa [redrawn, calm, erase, room] using insert_draws h ⟨room.1, room.2.1⟩ room.2.2
  · exact quiet_draws (readline_ignored calm hesc hcr erase room)
      (by simp [redrawn, calm, erase, room])

theorem bracket_draws (h : Represents s r) (state : s.esc = 2) (hesc : c ≠ escapeByte)
    (hcr : c ≠ ch '\r') :
    ∃ out, readline c s = out.map (Prod.mk false) ∧ Draws (redrawn c s) out := by
  by_cases older : c = ch 'A'
  · subst older
    refine ⟨upArrow s, by simp +decide [readline, state], ?_⟩
    simpa +decide [redrawn, state] using upArrow_draws h
  by_cases newer : c = ch 'B'
  · subst newer
    refine ⟨downArrow s, by simp +decide [readline, state], ?_⟩
    simpa +decide [redrawn, state] using downArrow_draws h
  have nothing : redrawn c s = none := by simp [redrawn, state, older, newer]
  by_cases right : c = ch 'C'
  · subst right
    rw [nothing]
    exact ⟨rightArrow s, by simp +decide [readline, state], rightArrow_draws h⟩
  by_cases left : c = ch 'D'
  · subst left
    rw [nothing]
    exact ⟨leftArrow s, by simp +decide [readline, state], leftArrow_draws s⟩
  by_cases three : c = ch '3'
  · have leads : readline c s = .ok (false, { s with esc := 3 }, []) := by
      simp +decide [readline, state, three]
    exact quiet_draws leads nothing
  · have dropped := dropped_bracket hesc hcr state (by simp [older, newer, right, left, three])
    exact quiet_draws dropped nothing

theorem readline_draws (h : Represents s r) (hcr : c ≠ ch '\r') :
    ∃ out, readline c s = out.map (Prod.mk false) ∧ Draws (redrawn c s) out := by
  by_cases hesc : c = escapeByte
  · subst hesc
    have starts : readline escapeByte s = .ok (false, { s with esc := 1 }, []) := by
      simp [readline, escapeByte]
    exact quiet_draws starts (by simp +decide [redrawn])
  have pending := h.pending
  generalize he : s.esc = e at pending
  generalize r.pending = sequence at pending
  cases pending with
  | none => exact typed_draws h he hesc hcr
  | bracket => exact bracket_draws h he hesc hcr
  | escape =>
    have nothing : redrawn c s = none := by simp [redrawn, he]
    by_cases bracket : c = ch '['
    · have leads : readline c s = .ok (false, { s with esc := 2 }, []) := by
        simp +decide [readline, he, bracket]
      exact quiet_draws leads nothing
    · exact quiet_draws (dropped_escape hesc hcr he bracket) nothing
  | three =>
    by_cases tilde : c = ch '~'
    · subst tilde
      refine ⟨delKey s, by simp +decide [readline, he], ?_⟩
      simpa +decide [redrawn, he] using delKey_draws h
    · exact quiet_draws (dropped_three hesc hcr he tilde) (by simp [redrawn, he, tilde])

theorem entry_length (h : Represents s r) {i : Int} {text : List Byte}
    (ht : entry s.history i = some text) : text.length ≤ 32 := by
  by_cases out : i < 0 ∨ 8 ≤ i
  · rw [entry_outside h out] at ht
    cases ht
  · obtain ⟨n, rfl⟩ := Int.eq_ofNat_of_zero_le (a := i) (by omega)
    obtain ⟨m, hm, holds⟩ := row_eq h.history (i := n) (by omega)
    simp only [entry, hm, cstring_eq holds] at ht
    split at ht
    · cases ht
    · cases ht
      exact holds.length_le

/-- No text of the line fills the buffer of mss_printf. -/
theorem redrawn_length (h : Represents s r) {text : List Byte} (ht : redrawn c s = some text) :
    text.length ≤ 32 := by
  have length : (cstring s.inputline).length ≤ 32 := by
    rw [cstring_eq h.edits.holds]
    exact h.edits.holds.length_le
  unfold redrawn at ht
  split at ht
  · cases ht
    rw [List.length_drop]
    omega
  split at ht
  · exact entry_length h ht
  split at ht
  · exact entry_length h ht
  split at ht
  · cases ht
    rw [List.length_drop]
    omega
  split at ht
  · cases ht
    simp only [List.length_cons, List.length_take, List.length_drop]
    omega
  · cases ht

end Draws

/-- What a key draws of the line is sent as it stands, exactly if it has no percent
sign. -/
theorem literal_iff {labels : List Label} {s : Caller} {c : Byte} (hartid : Int)
    (hr : editor.run editor.initial labels = some s) (hcr : c ≠ ch '\r') :
    ∃ s' echo, readline c s.editor = .ok (false, s', echo) ∧
      (Literal hartid echo ↔ ∀ text ∈ redrawn c s.editor, percent ∉ text) := by
  obtain ⟨r, agrees⟩ := agrees_of_run hr
  obtain ⟨out, reads, s', echo, rfl, drawn⟩ := readline_draws agrees.represents hcr
  refine ⟨s', echo, reads, ?_⟩
  unfold Literal
  rw [drawn]
  simp only [Option.mem_toList]
  apply forall₂_congr
  intro text ht
  apply snprintf_literal_iff
  exact Nat.lt_of_le_of_lt (redrawn_length agrees.represents ht) (by decide)

/-- Two percent signs, and the cursor before them. -/
def twoPercents : List Label :=
  (ascii ['%', '%', '\x1b', '[', 'D', '\x1b', '[', 'D']).map .key

theorem plainKey_literal : ∃ s' echo, readline (ch 'a') Editor.initial = .ok (false, s', echo) ∧
    inputs echo = [ascii ['a']] ∧ Literal 1 echo := by
  have start : editor.run editor.initial [] = some editor.initial := rfl
  obtain ⟨s', echo, reads, literal⟩ := literal_iff (c := ch 'a') 1 start (by decide)
  refine ⟨s', echo, reads, ?_, literal.mpr ?_⟩
  · cases reads
    rfl
  · intro text ht
    cases ht
    decide

/-- The letter is typed before two percent signs: one of them is not sent. -/
theorem twoPercents_cut : ∃ s s' echo, editor.run editor.initial twoPercents = some s ∧
    readline (ch 'a') s.editor = .ok (false, s', echo) ∧
    cstring s'.inputline = ascii ['a', '%', '%'] ∧ inputs echo = [ascii ['a', '%', '%']] ∧
    transmit 1 (.input (ascii ['a', '%', '%'])) = some (ascii ['a', '%']) ∧ ¬ Literal 1 echo := by
  refine ⟨_, _, _, rfl, rfl, rfl, rfl, rfl, fun literal => ?_⟩
  have sent := literal (ascii ['a', '%', '%']) (by decide)
  cases sent

end MultiZone.Readline
