import MultiZone.Readline.History

/-! The arrows go through the history whatever is done to the line in between. -/
namespace MultiZone.Readline
open Editing Transition

/-- What is done to a line: a character arrives, or one of the sequences that leave
the history alone. -/
inductive Edit where
  | type (c : { c : Byte // c ≠ escapeByte ∧ c ≠ ch '\r' })
  | delete
  | right
  | left

def Action.keys : Action → List Byte
  | .delete => [escapeByte, ch '[', ch '3', ch '~']
  | .right => [escapeByte, ch '[', ch 'C']
  | .left => [escapeByte, ch '[', ch 'D']
  | .older => [escapeByte, ch '[', ch 'A']
  | .newer => [escapeByte, ch '[', ch 'B']

def Edit.keys : Edit → List Byte
  | .type c => [c.val]
  | .delete => Action.delete.keys
  | .right => Action.right.keys
  | .left => Action.left.keys

def press (keys : List Byte) : List Label := keys.map .key

/-- An arrow again and again, and before each time the line is edited. -/
def browse (arrow : Action) (steps : List (List Edit)) : List Label :=
  steps.flatMap fun edits => edits.flatMap (fun e => press e.keys) ++ press arrow.keys

structure Fresh (s : Caller) : Prop where
  eol : s.eol = false
  esc : s.editor.esc = 0
  h : s.editor.h = -1

/-- Between two keys, with the entry of this number recalled last. -/
structure At (history : List Entry) (n : Nat) (r : Reference) : Prop where
  pending : r.pending = []
  eol : r.eol = false
  history : r.history = history
  selected : r.selected = n

def Shows (r : Reference) : Prop :=
  ∃ e, r.history[r.selected - 1]? = some e ∧ r.text.line = e.text

section Strokes

variable {history : List Entry} {n : Nat} {r : Reference}

theorem keys_act (a : Action) (calm : r.pending = []) (alive : r.eol = false) :
    reference.run r (press a.keys) = some (r.act a) := by
  obtain ⟨text, pending, history, few, selected, valid, eol⟩ := r
  cases calm
  cases alive
  cases a with
  | delete => rfl
  | right => rfl
  | left => rfl
  | older => rfl
  | newer => rfl

theorem keys_edit (c : { c : Byte // c ≠ escapeByte ∧ c ≠ ch '\r' }) (calm : r.pending = [])
    (alive : r.eol = false) : reference.run r (press [c.val]) = some (r.edit c) := by
  have hesc := c.property.1
  have hcr := c.property.2
  simp [press, Machine.run, reference, alive, Reference.press, hesc, hcr, calm]

theorem At.text (h : At history n r) (text : Zipper Printable 32) :
    At history n { r with text := text } :=
  ⟨h.pending, h.eol, h.history, h.selected⟩

theorem at_edit (e : Edit) (h : At history n r) :
    ∃ r', reference.run r (press e.keys) = some r' ∧ At history n r' := by
  cases e with
  | type c =>
    obtain ⟨text, edits⟩ := edit_text c r
    refine ⟨_, keys_edit c h.pending h.eol, ?_⟩
    rw [edits]
    exact h.text text
  | delete => exact ⟨_, keys_act .delete h.pending h.eol, h.text _⟩
  | right => exact ⟨_, keys_act .right h.pending h.eol, h.text _⟩
  | left => exact ⟨_, keys_act .left h.pending h.eol, h.text _⟩

theorem at_edits (edits : List Edit) (h : At history n r) :
    ∃ r', reference.run r (edits.flatMap fun e => press e.keys) = some r' ∧ At history n r' := by
  induction edits generalizing r with
  | nil => exact ⟨r, rfl, h⟩
  | cons e edits ih =>
    obtain ⟨r₁, first, h₁⟩ := at_edit e h
    obtain ⟨r', rest, h'⟩ := ih h₁
    refine ⟨r', ?_, h'⟩
    rw [List.flatMap_cons, Machine.run_append _ first]
    exact rest

theorem shows_select {i : Nat} (inside : i < r.history.length) : Shows (r.select i inside) :=
  ⟨r.history.get ⟨i, inside⟩, List.getElem?_eq_getElem inside,
    Zipper.line_atEnd _ (r.history.get ⟨i, inside⟩).short⟩

theorem at_older (h : At history n r) (more : n < history.length) :
    ∃ r', reference.run r (press Action.older.keys) = some r' ∧ At history (n + 1) r' ∧
      Shows r' := by
  obtain ⟨calm, alive, rfl, rfl⟩ := h
  refine ⟨_, keys_act .older calm alive, ?_⟩
  rw [Reference.act, dif_pos more]
  exact ⟨⟨calm, alive, rfl, rfl⟩, shows_select more⟩

theorem at_newer (h : At history n r) (more : 1 < n) :
    ∃ r', reference.run r (press Action.newer.keys) = some r' ∧ At history (n - 1) r' ∧
      Shows r' := by
  obtain ⟨calm, alive, rfl, rfl⟩ := h
  have valid := r.valid
  have inside : r.selected - 2 < r.history.length := by omega
  refine ⟨_, keys_act .newer calm alive, ?_⟩
  rw [Reference.act, dif_pos more]
  refine ⟨⟨calm, alive, rfl, ?_⟩, shows_select inside⟩
  change r.selected - 2 + 1 = r.selected - 1
  omega

theorem at_ups (ups : List (List Edit)) (h : At history n r)
    (enough : n + ups.length ≤ history.length) (shown : 0 < n → Shows r) :
    ∃ r', reference.run r (browse .older ups) = some r' ∧ At history (n + ups.length) r' ∧
      (0 < n + ups.length → Shows r') := by
  induction ups generalizing r n with
  | nil => exact ⟨r, rfl, h, shown⟩
  | cons edits ups ih =>
    rw [List.length_cons] at enough ⊢
    obtain ⟨r₁, edited, h₁⟩ := at_edits edits h
    obtain ⟨r₂, arrow, h₂, shows⟩ := at_older h₁ (by omega)
    obtain ⟨r', rest, h', final⟩ := ih h₂ (by omega) (fun _ => shows)
    refine ⟨r', ?_, ?_, fun _ => final (by omega)⟩
    · rw [browse, List.flatMap_cons, List.append_assoc, Machine.run_append _ edited,
        Machine.run_append _ arrow]
      exact rest
    · rw [show n + (ups.length + 1) = n + 1 + ups.length by omega]
      exact h'

theorem at_downs (downs : List (List Edit)) (h : At history n r) (fewer : downs.length < n)
    (shown : Shows r) :
    ∃ r', reference.run r (browse .newer downs) = some r' ∧ At history (n - downs.length) r' ∧
      Shows r' := by
  induction downs generalizing r n with
  | nil => exact ⟨r, rfl, h, shown⟩
  | cons edits downs ih =>
    rw [List.length_cons] at fewer ⊢
    obtain ⟨r₁, edited, h₁⟩ := at_edits edits h
    obtain ⟨r₂, arrow, h₂, shows⟩ := at_newer h₁ (by omega)
    obtain ⟨r', rest, h', final⟩ := ih h₂ (by omega) shows
    refine ⟨r', ?_, ?_, final⟩
    · rw [browse, List.flatMap_cons, List.append_assoc, Machine.run_append _ edited,
        Machine.run_append _ arrow]
      exact rest
    · rw [show n - (downs.length + 1) = n - 1 - downs.length by omega]
      exact h'

end Strokes

section Arrows

variable {s : Session} {r : Reference}

theorem Fresh.at {s : Caller} (fresh : Fresh s) (h : Agrees s r) : At r.history 0 r := by
  have calm := h.represents.pending.idle_iff.mp fresh.esc
  have selected := h.represents.selected
  rw [fresh.h] at selected
  exact ⟨calm, h.eol.symm.trans fresh.eol, rfl, by omega⟩

theorem browse_shows (h : Recorded s r) (fresh : Fresh s.caller) (ups downs : List (List Edit))
    (enough : ups.length ≤ (recent 8 s.lines).length) (fewer : downs.length < ups.length) :
    ∃ t, editor.run s.caller (browse .older ups ++ browse .newer downs) = some t ∧
      (recent 8 s.lines)[ups.length - downs.length - 1]? = some (cstring t.editor.inputline) := by
  rw [← h.contents, List.length_map] at enough
  have start := fresh.at h.agrees
  obtain ⟨r₁, climbs, h₁, shows⟩ :=
    at_ups ups start (by omega) (fun none => absurd none (by decide))
  rw [Nat.zero_add] at h₁ shows
  obtain ⟨r₂, descends, h₂, e, entry, line⟩ := at_downs downs h₁ fewer (shows (by omega))
  have runs : reference.run r (browse .older ups ++ browse .newer downs) = some r₂ := by
    rw [Machine.run_append _ climbs]
    exact descends
  obtain ⟨t, ht, agrees⟩ :=
    simulation_follow (R := fun r s => Agrees s r) (fun r s a r' h hr => editor_follows h hr)
      h.agrees runs
  rw [h₂.selected, h₂.history] at entry
  refine ⟨t, ht, ?_⟩
  rw [cstring_eq agrees.represents.edits.holds, line, ← h.contents, List.getElem?_map, entry]
  rfl

end Arrows

/-- After any keys the history is what the submitted lines leave, and from a fresh
line the arrows find each of its entries. -/
theorem history_recent {labels : List Label} {s : Session}
    (hs : session.run session.initial labels = some s) :
    Keeps s.caller.editor (recent 8 s.lines) ∧
      (Fresh s.caller → ∀ ups downs : List (List Edit),
        ups.length ≤ (recent 8 s.lines).length → downs.length < ups.length →
        ∃ t, editor.run s.caller (browse .older ups ++ browse .newer downs) = some t ∧
          (recent 8 s.lines)[ups.length - downs.length - 1]? =
            some (cstring t.editor.inputline)) := by
  obtain ⟨r, recorded⟩ := recorded_of_run hs
  exact ⟨recorded.keeps, fun fresh ups downs enough fewer =>
    browse_shows recorded fresh ups downs enough fewer⟩

def submitted : List Label :=
  press (ascii ['a', '\r']) ++ [.finish []] ++ press (ascii ['b', '\r']) ++ [.finish []]

/-- The letter that is typed between the arrows is not kept. -/
theorem submitted_recent : ∃ s t, session.run session.initial submitted = some s ∧
    s.lines = [ascii ['b'], ascii ['a']] ∧ Keeps s.caller.editor s.lines ∧
    editor.run s.caller (browse .older [[], []] ++
      browse .newer [[.type ⟨ch 'x', by decide, by decide⟩]]) = some t ∧
    cstring t.editor.inputline = ascii ['b'] := by
  have runs : session.run session.initial submitted = some _ := rfl
  obtain ⟨keeps, finds⟩ := history_recent runs
  obtain ⟨t, browsed, shown⟩ := finds ⟨rfl, rfl, rfl⟩ [[], []]
    [[.type ⟨ch 'x', by decide, by decide⟩]] (by decide) (by decide)
  exact ⟨_, t, rfl, rfl, keeps, browsed, (Option.some.inj shown).symm⟩

end MultiZone.Readline
