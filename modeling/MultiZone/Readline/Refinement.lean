import MultiZone.Readline.Reference

/-! Every key does to the buffer what the reference editor does to its line. -/
namespace MultiZone.Readline
open Editing Transition

/-- The buffer holds the line, with the cursor where it is in the line. -/
structure Edits (m : List Byte) (p : Nat) (z : Zipper Printable 32) : Prop where
  holds : Holds m (bytes z.line)
  cursor : p = z.position

section Lines

variable {m : List Byte} {p : Nat} {z : Zipper Printable 32}

theorem bytes_line (z : Zipper Printable 32) :
    bytes z.line = bytes z.left.reverse ++ bytes z.right := List.map_append

theorem bytes_injective {k l : List Printable} (h : bytes k = bytes l) : k = l :=
  List.map_injective_iff.mpr Subtype.val_injective h

theorem bytes_rdropWhile (l : List Printable) :
    bytes (l.rdropWhile fun c => isSpace c.val) = (bytes l).rdropWhile isSpace := by
  simp only [bytes, List.rdropWhile, List.dropWhile_map, ← List.map_reverse]
  rfl

theorem bytes_trim (l : List Printable) :
    bytes (trim l) = ((bytes l).rdropWhile isSpace).dropWhile isSpace := by
  rw [← bytes_rdropWhile]
  simp only [bytes, List.dropWhile_map]
  rfl

theorem fromCursor_eq (h : Edits m p z) : fromCursor m p = .ok (bytes z.right) := by
  have length := strlen_eq h.holds
  have position : p = (bytes z.left.reverse).length := by simp [bytes, h.cursor, Zipper.position]
  simp only [fromCursor, bind, Except.bind, length, cstring_eq h.holds]
  rw [bytes_line, List.length_append, if_pos (by omega), position, List.drop_left]

theorem shiftLeft_edits (h : Edits m p z) :
    ∃ m', shiftLeft (m.length + 1) p m = .ok m' ∧ Edits m' p z.delete := by
  obtain ⟨left, right, fits⟩ := z
  obtain ⟨holds, rfl⟩ := h
  have position : Zipper.position ⟨left, right, fits⟩ = (bytes left.reverse).length := by
    simp [bytes, Zipper.position]
  rw [bytes_line] at holds
  cases right with
  | nil =>
    refine ⟨m, ?_, by rw [bytes_line]; exact holds, rfl⟩
    rw [position]
    simp only [bytes, List.map_nil, List.append_nil] at holds ⊢
    exact shiftLeft_end holds
  | cons c right =>
    obtain ⟨m', shift, holds'⟩ := shiftLeft_delete holds
    refine ⟨m', ?_, ?_, rfl⟩
    · rw [position]
      exact shift
    · rw [bytes_line]
      exact holds'

theorem Edits.moveLeft (h : Edits m p z) : Edits m (p - 1) z.moveLeft :=
  ⟨z.line_moveLeft ▸ h.holds, by rw [z.position_moveLeft, h.cursor]⟩

theorem Edits.moveRight (h : Edits m p z) (more : z.right ≠ []) : Edits m (p + 1) z.moveRight :=
  ⟨z.line_moveRight ▸ h.holds, by rw [Zipper.position_moveRight more, h.cursor]⟩

theorem insert_edits (c : Printable) (h : Edits m p z) (room : p < 32) :
    ∃ m₁ m₂, makeRoom p 31 m = .ok m₁ ∧ put m₁ p c = .ok m₂ ∧ Edits m₂ (p + 1) (z.insert c) := by
  have holds := h.holds
  have hz : z.position < 32 := h.cursor ▸ room
  have position : p = (bytes z.left.reverse).length := by simp [bytes, h.cursor, Zipper.position]
  rw [bytes_line] at holds
  have positive : c.val ≠ 0 := by
    have low := c.property.1
    intro zero
    rw [zero] at low
    exact absurd low (by decide)
  obtain ⟨m₁, m₂, makes, puts, holds'⟩ := insert_eq holds (position ▸ room) positive
  refine ⟨m₁, m₂, position ▸ makes, position ▸ puts, ?_, ?_⟩
  · have line : bytes (z.insert c).line =
        bytes z.left.reverse ++ c.val :: (bytes z.right).take (31 - p) := by
      rw [Zipper.line_insert c hz, ← h.cursor]
      simp [bytes]
    rw [line, position]
    exact holds'
  · rw [Zipper.position_insert c hz, h.cursor]

end Lines

/-- The text behind the cursor is printed again, and the cursor goes back. -/
def redraw (z : Zipper Printable 32) : List Echo :=
  [.saveCursor, .clearRight, .input (bytes z.right), .restoreCursor]

/-- What is printed while one line becomes another. -/
inductive Prints (z : Zipper Printable 32) : Zipper Printable 32 → List Echo → Prop where
  | nothing : Prints z z []
  | delete : Prints z z.delete (redraw z.delete)
  | backspace (more : 0 < z.position) : Prints z z.backspace (.cursorLeft :: redraw z.backspace)
  | insert (c : Printable) (room : z.position < 32) :
    Prints z (z.insert c) (redraw (z.insert c).moveLeft ++ [.cursorRight])
  | right (more : z.right ≠ []) : Prints z z.moveRight [.cursorRight]
  | left (more : 0 < z.position) : Prints z z.moveLeft [.cursorLeft]
  | recallLine (l : List Printable) (fits : l.length ≤ 32) :
    Prints z (.atEnd l fits) [.clearLine, .prompt, .input (bytes l)]

section Keys

variable {s : Editor} {z : Zipper Printable 32}

theorem delKey_eq (h : Edits s.inputline s.p z) :
    ∃ m, delKey s = .ok ({ s with inputline := m, esc := 0 }, redraw z.delete) ∧
      Edits m s.p z.delete := by
  obtain ⟨m, shift, edits⟩ := shiftLeft_edits h
  refine ⟨m, ?_, edits⟩
  simp only [delKey, bind, Except.bind, shift, fromCursor_eq edits, redraw]

theorem backspace_eq (h : Edits s.inputline s.p z) (more : 0 < z.position) :
    ∃ m, backspace s = .ok ({ s with inputline := m, p := s.p - 1 },
      .cursorLeft :: redraw z.backspace) ∧ Edits m (s.p - 1) z.backspace := by
  obtain ⟨m, shift, edits⟩ := shiftLeft_edits h.moveLeft
  rw [← Zipper.backspace_eq more] at edits
  refine ⟨m, ?_, edits⟩
  simp only [backspace, bind, Except.bind, shift, fromCursor_eq edits, redraw]

theorem insert_line (c : Printable) (h : Edits s.inputline s.p z) (room : s.p < 32) :
    ∃ m, insert c s = .ok ({ s with inputline := m, p := s.p + 1 },
      redraw (z.insert c).moveLeft ++ [.cursorRight]) ∧ Edits m (s.p + 1) (z.insert c) := by
  obtain ⟨m₁, m, makes, puts, edits⟩ := insert_edits c h room
  refine ⟨m, ?_, edits⟩
  have back := fromCursor_eq edits.moveLeft
  rw [Nat.add_sub_cancel] at back
  simp only [insert, bind, Except.bind, makes, puts, back, redraw, List.cons_append, List.nil_append]

theorem rightArrow_eq (h : Edits s.inputline s.p z) :
    ∃ echo, rightArrow s = .ok ({ s with p := z.moveRight.position, esc := 0 }, echo) ∧
      Prints z z.moveRight echo := by
  have length := strlen_eq h.holds
  rw [bytes_line, List.length_append] at length
  have position : (bytes z.left.reverse).length = s.p := by
    simp [bytes, h.cursor, Zipper.position]
  obtain ⟨left, right, fits⟩ := z
  cases right with
  | nil =>
    refine ⟨[], ?_, .nothing⟩
    have none : ¬ s.p < (bytes left.reverse).length + (bytes []).length := by
      simp [bytes] at position ⊢
      omega
    simp only [rightArrow, bind, Except.bind, length, if_neg none]
    rw [show Zipper.position (Zipper.moveRight ⟨left, [], fits⟩) = s.p from h.cursor.symm]
  | cons c right =>
    refine ⟨[.cursorRight], ?_, .right (List.cons_ne_nil c right)⟩
    have more : s.p < (bytes left.reverse).length + (bytes (c :: right)).length := by
      simp [bytes] at position ⊢
      omega
    simp only [rightArrow, bind, Except.bind, length, if_pos more]
    rw [Zipper.position_moveRight (List.cons_ne_nil c right), ← h.cursor]

theorem leftArrow_eq (h : Edits s.inputline s.p z) :
    ∃ echo, leftArrow s = .ok ({ s with p := z.moveLeft.position, esc := 0 }, echo) ∧
      Prints z z.moveLeft echo := by
  rw [Zipper.position_moveLeft, ← h.cursor]
  unfold leftArrow
  by_cases more : s.p > 0
  · exact ⟨[.cursorLeft], by rw [if_pos more], .left (h.cursor ▸ more)⟩
  · refine ⟨[], by rw [if_neg more, show s.p - 1 = s.p by omega], ?_⟩
    have stays : z.moveLeft = z := by
      obtain ⟨left, right, fits⟩ := z
      cases left with
      | nil => rfl
      | cons c left => exact absurd (h.cursor ▸ Nat.succ_pos left.length) more
    rw [stays]
    exact .nothing

end Keys

section History

variable {s : Editor} {r : Reference} {rows : List (List Byte)} {history : List Entry}

/-- The text of an entry; nothing behind the oldest one. -/
def recalled (history : List Entry) (i : Nat) : List Printable :=
  match history[i]? with
  | some e => e.text
  | none => []

theorem recalled_nil {i : Nat} (out : history.length ≤ i) : recalled history i = [] := by
  rw [recalled, List.getElem?_eq_none out]

theorem recalled_get {i : Nat} (inside : i < history.length) :
    recalled history i = (history.get ⟨i, inside⟩).text := by
  simp [recalled, inside]

theorem HoldsRows.congr {e e' : Nat → List Byte} (h : HoldsRows rows e)
    (same : ∀ i < 8, e i = e' i) : HoldsRows rows e' := by
  refine ⟨h.1, fun i hi => ?_⟩
  rw [← same i hi]
  exact h.2 i hi

theorem recall_eq {z : Zipper Printable 32} {i : Nat} (h : Edits s.inputline s.p z)
    (hrows : HoldsRows s.history fun i => bytes (recalled history i)) (few : history.length ≤ 8)
    (hi : i < history.length) :
    ∃ m, recallLine i s = .ok
        ({ s with inputline := m, p := (history.get ⟨i, hi⟩).text.length, esc := 0, h := i },
          [.clearLine, .prompt, .input (bytes (history.get ⟨i, hi⟩).text)]) ∧
      Holds m (bytes (history.get ⟨i, hi⟩).text) := by
  obtain ⟨entry, hentry, holds⟩ := row_eq hrows (Nat.lt_of_lt_of_le hi few)
  rw [recalled_get hi] at holds
  obtain ⟨m, copied, holds'⟩ := strcpy_eq holds h.holds
  have nonempty : (bytes (history.get ⟨i, hi⟩).text).length > 0 := by
    rw [bytes, List.length_map]
    exact List.length_pos_iff.mpr (history.get ⟨i, hi⟩).nonempty
  refine ⟨m, ?_, holds'⟩
  simp only [recallLine, bind, Except.bind, hentry, strlen_eq holds, if_pos nonempty, copied,
    strlen_eq holds', cstring_eq holds']
  rw [bytes, List.length_map]

theorem recall_none {i : Nat} (hrows : HoldsRows s.history fun i => bytes (recalled history i))
    (hi : i < 8) (out : history.length ≤ i) : recallLine i s = .ok ({ s with esc := 0 }, []) := by
  obtain ⟨entry, hentry, holds⟩ := row_eq hrows hi
  rw [recalled_nil out] at holds
  have empty : ¬ (bytes []).length > 0 := Nat.lt_irrefl 0
  simp only [recallLine, bind, Except.bind, hentry, strlen_eq holds, if_neg empty]

theorem recalled_remember (e : Entry) {i : Nat} (hi : i < 8) :
    bytes (recalled (remember e history) i) =
      (if bytes e.text = [] ∨ bytes e.text = bytes (recalled history 0)
        then fun i => bytes (recalled history i)
        else fun i => if i = 0 then bytes e.text else bytes (recalled history (i - 1))) i := by
  have nonempty : bytes e.text ≠ [] := fun none => e.nonempty (List.map_eq_nil_iff.mp none)
  have latest : bytes e.text = bytes (recalled history 0) ↔ history.head? = some e := by
    cases history with
    | nil => exact ⟨fun same => absurd same nonempty, fun h => by contradiction⟩
    | cons f history =>
      constructor
      · intro same
        have texts : e.text = f.text := bytes_injective same
        obtain ⟨text, _, _⟩ := e
        obtain ⟨text', _, _⟩ := f
        cases texts
        rfl
      · intro same
        cases Option.some.inj same
        rfl
  unfold remember
  by_cases same : history.head? = some e
  · rw [if_pos same, if_pos (.inr (latest.mpr same))]
  · rw [if_neg same, if_neg (not_or.mpr ⟨nonempty, fun h => same (latest.mp h)⟩)]
    cases i with
    | zero => rfl
    | succ i =>
      have moved : recalled ((e :: history).take 8) (i + 1) = recalled history i := by
        rw [recalled, List.getElem?_take_of_lt hi]
        rfl
      rw [moved]
      rfl

end History

section Escape

/-- How much of an escape sequence has arrived. -/
inductive Pending : Nat → List Byte → Prop where
  | none : Pending 0 []
  | escape : Pending 1 [escapeByte]
  | bracket : Pending 2 [escapeByte, ch '[']
  | three : Pending 3 [escapeByte, ch '[', ch '3']

theorem Pending.idle_iff {n : Nat} {pending : List Byte} (h : Pending n pending) :
    n = 0 ↔ pending = [] := by
  cases h with
  | none => exact iff_of_true rfl rfl
  | escape => exact iff_of_false (by decide) (List.cons_ne_nil _ _)
  | bracket => exact iff_of_false (by decide) (List.cons_ne_nil _ _)
  | three => exact iff_of_false (by decide) (List.cons_ne_nil _ _)

def operation : Action → Editor → Outcome
  | .delete => delKey
  | .right => rightArrow
  | .left => leftArrow
  | .older => upArrow
  | .newer => downArrow

section Dropped

variable {s : Editor} {c : Byte} (hesc : c ≠ escapeByte) (hcr : c ≠ ch '\r')
include hesc hcr

theorem dropped_escape (state : s.esc = 1) (bracket : c ≠ ch '[') :
    readline c s = .ok (false, { s with esc := 0 }, []) := by
  have hesc : c ≠ ch '\x1b' := hesc
  simp [readline, state, bracket, hesc, hcr]

theorem dropped_bracket (state : s.esc = 2)
    (other : c ∉ [ch '3', ch 'A', ch 'B', ch 'C', ch 'D']) :
    readline c s = .ok (false, { s with esc := 0 }, []) := by
  have hesc : c ≠ ch '\x1b' := hesc
  simp only [List.mem_cons, List.not_mem_nil, or_false, not_or] at other
  simp [readline, state, other, hesc, hcr]

theorem dropped_three (state : s.esc = 3) (tilde : c ≠ ch '~') :
    readline c s = .ok (false, { s with esc := 0 }, []) := by
  have hesc : c ≠ ch '\x1b' := hesc
  simp [readline, state, tilde, hesc, hcr]

end Dropped

theorem escape_cases {s : Editor} {pending : List Byte} {c : Byte} (h : Pending s.esc pending)
    (inside : pending ≠ []) (hesc : c ≠ escapeByte) (hcr : c ≠ ch '\r') :
    (∃ a, sequences.lookup (pending ++ [c]) = some a ∧
      readline c s = (operation a s).map (Prod.mk false)) ∨
    sequences.lookup (pending ++ [c]) = none ∧
      ((∃ n, (sequences.any fun q => (pending ++ [c]).isPrefixOf q.1) = true ∧
        Pending n (pending ++ [c]) ∧ readline c s = .ok (false, { s with esc := n }, [])) ∨
      (sequences.any fun q => (pending ++ [c]).isPrefixOf q.1) = false ∧
        readline c s = .ok (false, { s with esc := 0 }, [])) := by
  generalize he : s.esc = e at h
  -- in each state some bytes lead on or complete a sequence, and all others end it
  cases h with
  | none => contradiction
  | escape =>
    right
    by_cases bracket : c = ch '['
    · subst bracket
      refine ⟨by decide, .inl ⟨2, by decide, .bracket, ?_⟩⟩
      simp +decide [readline, he]
    · refine ⟨?_, .inr ⟨?_, ?_⟩⟩
      · simp [sequences, List.lookup_cons]
      · simp [sequences, List.isPrefixOf, bracket]
      · exact dropped_escape hesc hcr he bracket
  | bracket =>
    by_cases three : c = ch '3'
    · subst three
      refine .inr ⟨by decide, .inl ⟨3, by decide, .three, ?_⟩⟩
      simp +decide [readline, he]
    by_cases right : c = ch 'C'
    · subst right
      refine .inl ⟨.right, by decide, ?_⟩
      simp +decide [readline, he, operation]
    by_cases left : c = ch 'D'
    · subst left
      refine .inl ⟨.left, by decide, ?_⟩
      simp +decide [readline, he, operation]
    by_cases older : c = ch 'A'
    · subst older
      refine .inl ⟨.older, by decide, ?_⟩
      simp +decide [readline, he, operation]
    by_cases newer : c = ch 'B'
    · subst newer
      refine .inl ⟨.newer, by decide, ?_⟩
      simp +decide [readline, he, operation]
    refine .inr ⟨?_, .inr ⟨?_, ?_⟩⟩
    · simp [sequences, List.lookup_cons, List.lookup_nil, beq_eq_false_iff_ne.mpr right,
        beq_eq_false_iff_ne.mpr left, beq_eq_false_iff_ne.mpr older, beq_eq_false_iff_ne.mpr newer]
    · simp [sequences, List.isPrefixOf, three, right, left, older, newer]
    · exact dropped_bracket hesc hcr he (by simp [three, right, left, older, newer])
  | three =>
    by_cases tilde : c = ch '~'
    · subst tilde
      refine .inl ⟨.delete, by decide, ?_⟩
      simp +decide [readline, he, operation]
    refine .inr ⟨?_, .inr ⟨?_, ?_⟩⟩
    · simp [sequences, List.lookup_cons, List.lookup_nil, beq_eq_false_iff_ne.mpr tilde]
    · simp +decide [sequences, List.isPrefixOf, tilde]
    · exact dropped_three hesc hcr he tilde

end Escape

/-- The buffer, the escape state and the history are those of the reference editor. -/
structure Represents (s : Editor) (r : Reference) : Prop where
  edits : Edits s.inputline s.p r.text
  pending : Pending s.esc r.pending
  history : HoldsRows s.history fun i => bytes (recalled r.history i)
  selected : s.h + 1 = r.selected

/-- The outcome is a state for the new reference state, and what is printed is right. -/
def Follows (r r' : Reference) (out : Outcome) : Prop :=
  ∃ s' echo, out = .ok (s', echo) ∧ Represents s' r' ∧ Prints r.text r'.text echo

section Actions

variable {s : Editor} {r : Reference}

theorem Represents.calm (h : Represents s r) :
    Represents { s with esc := 0 } { r with pending := [] } :=
  ⟨h.edits, .none, h.history, h.selected⟩

theorem Represents.calm_follows (h : Represents s r) :
    Follows r { r with pending := [] } (.ok ({ s with esc := 0 }, [])) :=
  ⟨_, _, rfl, h.calm, .nothing⟩

theorem select_follows (h : Represents s r) {i : Nat} (hi : i < r.history.length) :
    Follows r ({ r with pending := [] }.select i hi) (recallLine i s) := by
  obtain ⟨m, recalls, holds⟩ := recall_eq h.edits h.history r.few hi
  refine ⟨_, _, recalls, ⟨⟨?_, ?_⟩, .none, h.history, rfl⟩,
    .recallLine _ (r.history.get ⟨i, hi⟩).short⟩
  · simp only [Reference.select, Zipper.line_atEnd]
    exact holds
  · exact (List.length_reverse).symm

theorem upArrow_follows (h : Represents s r) :
    Follows r ({ r with pending := [] }.act .older) (upArrow s) := by
  have selected := h.selected
  have few := r.few
  simp only [upArrow, Reference.act]
  by_cases more : r.selected < r.history.length
  · rw [if_pos (by omega), dif_pos more, selected]
    exact select_follows h more
  · rw [dif_neg more]
    by_cases low : s.h < 8 - 1
    · rw [if_pos low, selected, recall_none h.history (by omega) (by omega)]
      exact h.calm_follows
    · rw [if_neg low]
      exact h.calm_follows

theorem downArrow_follows (h : Represents s r) :
    Follows r ({ r with pending := [] }.act .newer) (downArrow s) := by
  have selected := h.selected
  have valid := r.valid
  simp only [downArrow, Reference.act]
  by_cases more : 1 < r.selected
  · rw [if_pos (by omega), dif_pos more, show s.h - 1 = ((r.selected - 2 : Nat) : Int) by omega]
    exact select_follows h (by omega)
  · rw [if_neg (by omega), dif_neg more]
    exact h.calm_follows

theorem act_follows (h : Represents s r) (a : Action) :
    Follows r ({ r with pending := [] }.act a) (operation a s) := by
  cases a with
  | delete =>
    obtain ⟨m, deletes, edits⟩ := delKey_eq h.edits
    exact ⟨_, _, deletes, ⟨edits, .none, h.history, h.selected⟩, .delete⟩
  | right =>
    obtain ⟨echo, moves, prints⟩ := rightArrow_eq h.edits
    have holds := r.text.line_moveRight.symm ▸ h.edits.holds
    exact ⟨_, _, moves, ⟨⟨holds, rfl⟩, .none, h.history, h.selected⟩, prints⟩
  | left =>
    obtain ⟨echo, moves, prints⟩ := leftArrow_eq h.edits
    have holds := r.text.line_moveLeft.symm ▸ h.edits.holds
    exact ⟨_, _, moves, ⟨⟨holds, rfl⟩, .none, h.history, h.selected⟩, prints⟩
  | older => exact upArrow_follows h
  | newer => exact downArrow_follows h

end Actions

section Keys

variable {s : Editor} {r : Reference} {c : Byte}

theorem escape_follows (h : Represents s r) (inside : r.pending ≠ []) (hesc : c ≠ escapeByte)
    (hcr : c ≠ ch '\r') :
    ∃ out, readline c s = out.map (Prod.mk false) ∧ Follows r (r.escape c) out := by
  unfold Reference.escape
  obtain ⟨a, complete, reads⟩ | ⟨none, ⟨n, leads, pending, reads⟩ | ⟨leads, reads⟩⟩ :=
    escape_cases h.pending inside hesc hcr
  · rw [complete]
    exact ⟨_, reads, act_follows h a⟩
  · rw [none]
    simp only [leads, if_true]
    exact ⟨.ok ({ s with esc := n }, []), reads, _, _, rfl,
      ⟨h.edits, pending, h.history, h.selected⟩, .nothing⟩
  · rw [none]
    simp only [leads, if_neg Bool.false_ne_true]
    exact ⟨.ok ({ s with esc := 0 }, []), reads, h.calm_follows⟩

theorem readline_ignored (calm : s.esc = 0) (hesc : c ≠ escapeByte) (hcr : c ≠ ch '\r')
    (noErase : ¬ ((c = ch '\x08' ∨ c = ch '\x7f') ∧ 0 < s.p))
    (noInsert : ¬ (ch ' ' ≤ c ∧ c ≤ ch '~' ∧ s.p < 32)) :
    readline c s = .ok (false, { s with esc := 0 }, []) := by
  have hesc : c ≠ ch '\x1b' := hesc
  have noErase : ¬ ((c = ch '\x08' ∨ c = ch '\x7f') ∧ s.p > 0 ∧ s.esc = 0) :=
    fun h => noErase ⟨h.1, h.2.1⟩
  have noInsert : ¬ (c ≥ ch ' ' ∧ c ≤ ch '~' ∧ s.p < 33 - 1 ∧ s.esc = 0) :=
    fun h => noInsert ⟨h.1, h.2.1, h.2.2.1⟩
  unfold readline
  rw [if_neg hesc, if_neg noErase, if_neg noInsert, if_neg hcr]
  simp [calm]

theorem printable_ne {b : Byte} (h : ch ' ' ≤ c ∧ c ≤ ch '~')
    (hb : ¬ (ch ' ' ≤ b ∧ b ≤ ch '~')) : c ≠ b :=
  fun same => hb (same ▸ h)

theorem readline_insert (calm : s.esc = 0) (printable : ch ' ' ≤ c ∧ c ≤ ch '~')
    (room : s.p < 32) : readline c s = (insert c s).map (Prod.mk false) := by
  have hesc : c ≠ ch '\x1b' := printable_ne printable (by decide)
  have hb : c ≠ ch '\x08' := printable_ne printable (by decide)
  have hd : c ≠ ch '\x7f' := printable_ne printable (by decide)
  simp [readline, calm, hesc, hb, hd, printable, room]

theorem readline_backspace (calm : s.esc = 0) (erase : c = ch '\x08' ∨ c = ch '\x7f')
    (more : 0 < s.p) : readline c s = (backspace s).map (Prod.mk false) := by
  have hesc : c ≠ ch '\x1b' := by rcases erase with rfl | rfl <;> decide
  simp [readline, calm, hesc, erase, more]

theorem edit_follows (h : Represents s r) (calm : r.pending = []) (hesc : c ≠ escapeByte)
    (hcr : c ≠ ch '\r') :
    ∃ out, readline c s = out.map (Prod.mk false) ∧ Follows r (r.edit c) out := by
  have cursor := h.edits.cursor
  have pending := h.pending
  have he : s.esc = 0 := pending.idle_iff.mpr calm
  have idle := h.calm_follows
  rw [show { r with pending := [] } = r by rw [← calm]] at idle
  have ignored noErase noInsert :
      ∃ out, readline c s = out.map (Prod.mk false) ∧ Follows r r out :=
    ⟨.ok ({ s with esc := 0 }, []), readline_ignored he hesc hcr noErase noInsert, idle⟩
  unfold Reference.edit
  by_cases printable : ch ' ' ≤ c ∧ c ≤ ch '~'
  · rw [dif_pos printable]
    by_cases room : s.p < 32
    · obtain ⟨m, inserts, edits⟩ := insert_line ⟨c, printable⟩ h.edits room
      exact ⟨insert c s, readline_insert he printable room, _, _, inserts,
        ⟨edits, pending, h.history, h.selected⟩, .insert ⟨c, printable⟩ (cursor ▸ room)⟩
    · rw [Zipper.insert_full _ (by omega)]
      apply ignored
      · rintro ⟨rfl | rfl, _⟩
        · exact absurd printable (by decide)
        · exact absurd printable (by decide)
      · exact fun h => room h.2.2
  · rw [dif_neg printable]
    have noInsert : ¬ (ch ' ' ≤ c ∧ c ≤ ch '~' ∧ s.p < 32) := fun h => printable ⟨h.1, h.2.1⟩
    by_cases erase : c = ch '\x08' ∨ c = ch '\x7f'
    · rw [if_pos erase]
      by_cases more : 0 < s.p
      · obtain ⟨m, erases, edits⟩ := backspace_eq h.edits (cursor ▸ more)
        exact ⟨backspace s, readline_backspace he erase more, _, _, erases,
          ⟨edits, pending, h.history, h.selected⟩, .backspace (cursor ▸ more)⟩
      · rw [Zipper.backspace_start (by omega)]
        exact ignored (fun h => more h.2) noInsert
    · rw [if_neg erase]
      exact ignored (fun h => erase h.1) noInsert

end Keys

section Enter

variable {s : Editor} {r r' : Reference}

theorem bytes_blank {l : List Printable} :
    (bytes l).rdropWhile isSpace = [] ↔ trim l = [] := by
  rw [← bytes_rdropWhile, trim_eq_nil]
  exact List.map_eq_nil_iff

theorem carriageReturn_blank (h : Represents s r) (blank : r.enter = none) :
    carriageReturn s = .error .outOfBounds := by
  have empty : trim r.text.line = [] := by
    by_contra more
    simp [Reference.enter, more] at blank
  have holds := h.edits.holds
  have short : (bytes r.text.line).length < s.inputline.length + 1 := by
    have := holds.length_le
    have := holds.size
    omega
  obtain ⟨_, faults⟩ | ⟨more, _⟩ := trimRight_eq holds short
  · simp only [carriageReturn, bind, Except.bind, faults]
  · exact absurd (bytes_blank.mpr empty) more

theorem carriageReturn_eq (h : Represents s r) (hr : r.enter = some r') :
    ∃ s', carriageReturn s = .ok (s', [.newline]) ∧ Represents s' r' := by
  unfold Reference.enter at hr
  split at hr
  case isFalse => contradiction
  case isTrue nonempty =>
    have holds := h.edits.holds
    have size := holds.size
    have length := holds.length_le
    have fuel : (bytes r.text.line).length < s.inputline.length + 1 := by omega
    obtain ⟨blank, _⟩ | ⟨_, m₁, right, holds₁⟩ := trimRight_eq holds fuel
    · exact absurd (bytes_blank.mp blank) nonempty
    have size₁ := holds₁.size
    have length₁ := holds₁.length_le
    have fuel₁ : ((bytes r.text.line).rdropWhile isSpace).length < m₁.length + 1 := by omega
    obtain ⟨m₂, left, holds₂⟩ := trimLeft_eq holds₁ fuel₁
    rw [← bytes_trim] at holds₂
    obtain ⟨rows, saves, history⟩ := saveLine_eq holds₂ h.history
    refine ⟨⟨m₂, 0, 0, rows, -1⟩, ?_, ?_⟩
    · simp only [carriageReturn, bind, Except.bind, right, left, saves]
    · cases Option.some.inj hr
      refine ⟨⟨holds₂, rfl⟩, .none, ?_, rfl⟩
      apply history.congr
      intro i hi
      exact (recalled_remember ⟨trim r.text.line, nonempty, _⟩ hi).symm

end Enter

section Press

variable {s : Editor} {r r' : Reference} {c : Byte}

/-- The line is not entered: it is not complete and the history is as it was. -/
structure Continues (r r' : Reference) : Prop where
  eol : r'.eol = r.eol
  history : r'.history = r.history

theorem continues_act (r : Reference) (a : Action) : Continues r (r.act a) := by
  cases a with
  | delete => exact ⟨rfl, rfl⟩
  | right => exact ⟨rfl, rfl⟩
  | left => exact ⟨rfl, rfl⟩
  | older =>
    simp only [Reference.act]
    split <;> exact ⟨rfl, rfl⟩
  | newer =>
    simp only [Reference.act]
    split <;> exact ⟨rfl, rfl⟩

theorem continues_escape (c : Byte) (r : Reference) : Continues r (r.escape c) := by
  unfold Reference.escape
  split
  · rename_i a _
    obtain ⟨eol, history⟩ := continues_act { r with pending := [] } a
    exact ⟨eol, history⟩
  · split <;> exact ⟨rfl, rfl⟩

theorem edit_text (c : Byte) (r : Reference) : ∃ text, r.edit c = { r with text := text } := by
  unfold Reference.edit
  split
  · exact ⟨_, rfl⟩
  · split
    · exact ⟨_, rfl⟩
    · exact ⟨_, rfl⟩

theorem continues_edit (c : Byte) (r : Reference) : Continues r (r.edit c) := by
  obtain ⟨text, edits⟩ := edit_text c r
  rw [edits]
  exact ⟨rfl, rfl⟩

theorem continues_press (hcr : c ≠ ch '\r') (hr : r.press c = some r') : Continues r r' := by
  unfold Reference.press at hr
  rw [if_neg hcr] at hr
  split at hr
  · cases Option.some.inj hr
    exact ⟨rfl, rfl⟩
  split at hr
  · cases Option.some.inj hr
    exact continues_escape c r
  · cases Option.some.inj hr
    exact continues_edit c r

theorem enter_home (hr : r.enter = some r') : r'.eol = true ∧ r'.text.position = 0 := by
  unfold Reference.enter at hr
  split at hr
  · cases Option.some.inj hr
    exact ⟨rfl, rfl⟩
  · contradiction

theorem readline_press (h : Represents s r) (alive : r.eol = false) (hr : r.press c = some r') :
    ∃ s' echo, readline c s = .ok (r'.eol, s', echo) ∧ Represents s' r' ∧
      (c ≠ ch '\r' → Prints r.text r'.text echo) := by
  unfold Reference.press at hr
  by_cases hesc : c = escapeByte
  · rw [if_pos hesc] at hr
    cases Option.some.inj hr
    refine ⟨{ s with esc := 1 }, [], ?_, ⟨h.edits, .escape, h.history, h.selected⟩,
      fun _ => .nothing⟩
    have hesc : c = ch '\x1b' := hesc
    rw [readline, if_pos hesc, alive]
  rw [if_neg hesc] at hr
  by_cases hcr : c = ch '\r'
  · -- a carriage return acts as usual inside an escape sequence
    subst hcr
    rw [if_pos rfl] at hr
    obtain ⟨s', completes, represents⟩ := carriageReturn_eq h hr
    refine ⟨s', [.newline], ?_, represents, fun other => absurd rfl other⟩
    rw [(enter_home hr).1]
    simp +decide [readline, completes, Except.map]
  rw [if_neg hcr] at hr
  by_cases inside : r.pending ≠ []
  · rw [if_pos inside] at hr
    cases Option.some.inj hr
    obtain ⟨out, reads, s', echo, rfl, represents, prints⟩ := escape_follows h inside hesc hcr
    have eol := (continues_escape c r).eol
    exact ⟨s', echo, by rw [reads, eol, alive]; rfl, represents, fun _ => prints⟩
  · rw [if_neg inside] at hr
    cases Option.some.inj hr
    obtain ⟨out, reads, s', echo, rfl, represents, prints⟩ :=
      edit_follows h (not_not.mp inside) hesc hcr
    have eol := (continues_edit c r).eol
    exact ⟨s', echo, by rw [reads, eol, alive]; rfl, represents, fun _ => prints⟩

/-- The reference editor is stuck only where the code reads outside its buffer. -/
theorem readline_blank (h : Represents s r) (hr : r.press c = none) :
    readline c s = .error .outOfBounds := by
  unfold Reference.press at hr
  split at hr
  · contradiction
  split at hr
  case isTrue hcr =>
    have completes := carriageReturn_blank h hr
    subst hcr
    simp +decide [readline, completes, Except.map]
  · split at hr <;> contradiction

end Press

/-- What the two machines have in common between two labels. -/
structure Agrees (s : Caller) (r : Reference) : Prop where
  represents : Represents s.editor r
  eol : s.eol = r.eol
  home : r.eol = true → r.text.position = 0

section Runs

variable {s s' : Caller} {r r' : Reference} {label : Label} {labels : List Label}

theorem agrees_initial : Agrees editor.initial reference.initial := by
  have buffer : Holds (List.replicate 33 0) [] := ⟨rfl, rfl, List.not_mem_nil, _, rfl⟩
  refine ⟨⟨⟨buffer, rfl⟩, .none, ⟨rfl, fun i hi => ?_⟩, rfl⟩, rfl, fun eol => by contradiction⟩
  exact ⟨List.replicate 33 0, List.getElem?_replicate_of_lt hi, buffer⟩

theorem finish_holds {m : List Byte} (nuls : List Nat) (size : m.length = 33)
    (last : m[32]? = some 0) : Holds ((nuls.foldl (fun m i => m.set i 0) m).set 0 0) [] := by
  induction nuls generalizing m with
  | nil =>
    cases m with
    | nil => contradiction
    | cons b m => exact ⟨size, last, List.not_mem_nil, m, rfl⟩
  | cons i nuls ih =>
    apply ih
    · rw [List.length_set, size]
    · rw [List.getElem?_set, size]
      split
      · next same => rw [if_pos (by omega)]
      · exact last

theorem finish_agrees (nuls : List Nat) (h : Agrees s r) (eol : r.eol = true) :
    Agrees ⟨{ s.editor with
        inputline := (nuls.foldl (fun m i => m.set i 0) s.editor.inputline).set 0 0 }, false⟩
      { r with text := .empty, eol := false } := by
  have holds := h.represents.edits.holds
  have cursor := h.represents.edits.cursor
  have cleared := finish_holds nuls holds.size holds.last
  exact ⟨⟨⟨cleared, cursor.trans (h.home eol)⟩, h.represents.pending, h.represents.history,
    h.represents.selected⟩, rfl, fun eol => by contradiction⟩

theorem home_press {c : Byte} (alive : r.eol = false) (hr : r.press c = some r') :
    r'.eol = true → r'.text.position = 0 := by
  intro eol
  by_cases hcr : c = ch '\r'
  · subst hcr
    exact (enter_home hr).2
  · rw [(continues_press hcr hr).eol, alive] at eol
    contradiction

theorem editor_follows (h : Agrees s r) (hr : reference.step r label = some r') :
    ∃ s', editor.step s label = some s' ∧ Agrees s' r' := by
  have eol := h.eol
  cases label with
  | key c =>
    simp only [reference] at hr
    split at hr
    · contradiction
    next alive =>
      have alive : r.eol = false := Bool.eq_false_iff.mpr alive
      obtain ⟨t, echo, reads, represents, _⟩ := readline_press h.represents alive hr
      refine ⟨⟨t, r'.eol⟩, ?_, represents, rfl, home_press alive hr⟩
      simp [editor, eol, alive, reads]
  | finish nuls =>
    simp only [reference] at hr
    split at hr
    case isFalse => contradiction
    case isTrue done =>
      cases Option.some.inj hr
      refine ⟨_, ?_, finish_agrees nuls h done⟩
      simp only [editor]
      rw [if_pos (eol.trans done)]

theorem reference_follows (h : Agrees s r) (hs : editor.step s label = some s') :
    ∃ r', reference.step r label = some r' ∧ Agrees s' r' := by
  cases hr : reference.step r label with
  | some r' =>
    obtain ⟨t, ht, agrees⟩ := editor_follows h hr
    cases Option.some.inj (hs.symm.trans ht)
    exact ⟨r', rfl, agrees⟩
  | none =>
    have eol := h.eol
    cases label with
    | key c =>
      simp only [reference] at hr
      split at hr
      case isTrue done => simp [editor, eol, done] at hs
      case isFalse alive =>
        simp [editor, eol, alive, readline_blank h.represents hr] at hs
    | finish nuls =>
      simp only [reference] at hr
      split at hr
      case isTrue => contradiction
      case isFalse alive => simp [editor, eol, alive] at hs

/-- Wherever the reference editor can go the code goes without a fault, and shows
the same line with the same cursor. -/
theorem refines_reference (hr : reference.run reference.initial labels = some r) :
    ∃ s n, editor.run editor.initial labels = some s ∧ s.eol = r.eol ∧
      cstring s.editor.inputline = bytes r.text.line ∧ s.editor.p = r.text.position ∧
      strlen s.editor.inputline = .ok n ∧ s.editor.p ≤ n ∧ n ≤ 32 := by
  obtain ⟨s, hs, agrees⟩ :=
    simulation_follow (R := fun r s => Agrees s r) (fun r s a r' h hr => editor_follows h hr)
      agrees_initial hr
  have edits := agrees.represents.edits
  refine ⟨s, (bytes r.text.line).length, hs, agrees.eol, cstring_eq edits.holds, edits.cursor,
    strlen_eq edits.holds, ?_, edits.holds.length_le⟩
  rw [edits.cursor, bytes, List.length_map]
  exact r.text.position_le

def typed : List Label :=
  (ascii [' ', 'h', 'i', '\r']).map .key ++ [.finish [2]] ++
    (ascii ['\x1b', '[', 'A', '\x1b', '[', 'D']).map .key

theorem typed_refines : ∃ s n, editor.run editor.initial typed = some s ∧ s.eol = false ∧
    cstring s.editor.inputline = ascii ['h', 'i'] ∧ s.editor.p = 1 ∧
    strlen s.editor.inputline = .ok n ∧ s.editor.p ≤ n ∧ n ≤ 32 :=
  refines_reference
    (Option.some_get (x := reference.run reference.initial typed) (by decide)).symm

theorem agrees_of_run (hs : editor.run editor.initial labels = some s) :
    ∃ r, Agrees s r := by
  obtain ⟨r, _, agrees⟩ :=
    simulation_follow (fun s r a s' h hs => reference_follows h hs) agrees_initial hs
  exact ⟨r, agrees⟩

end Runs

end MultiZone.Readline
