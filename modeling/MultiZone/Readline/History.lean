import MultiZone.Readline.Refinement
import MultiZone.Editing.Recent

/-! The history holds the last eight of the lines that were submitted, where a line
that only repeats the one before it does not count. -/
namespace MultiZone.Readline
open Editing Transition

/-- The line without the spaces around it. -/
def submission (inputline : List Byte) : List Byte :=
  ((cstring inputline).rdropWhile isSpace).dropWhile isSpace

/-- readline and its caller, with the lines that were submitted, latest first. -/
structure Session where
  caller : Caller
  lines : List (List Byte)

def session : Machine Session Label where
  initial := ⟨editor.initial, []⟩
  step s label := (editor.step s.caller label).map fun t =>
    ⟨t, if t.eol then submission s.caller.editor.inputline :: s.lines else s.lines⟩

section Entries

def Entry.content (e : Entry) : List Byte := bytes e.text

theorem content_nonempty (e : Entry) : e.content ≠ [] :=
  fun none => e.nonempty (List.map_eq_nil_iff.mp none)

theorem content_injective : Function.Injective Entry.content := by
  intro e f same
  obtain ⟨text, _, _⟩ := e
  obtain ⟨text', _, _⟩ := f
  cases bytes_injective same
  rfl

theorem contents_remember (e : Entry) (history : List Entry) :
    (remember e history).map Entry.content =
      if (history.map Entry.content).head? = some e.content then history.map Entry.content
      else (e.content :: history.map Entry.content).take 8 := by
  have latest : (history.map Entry.content).head? = some e.content ↔ history.head? = some e := by
    rw [List.head?_map]
    exact (Option.map_injective content_injective).eq_iff (b := some e)
  unfold remember
  by_cases same : history.head? = some e
  · rw [if_pos same, if_pos (latest.mpr same)]
  · rw [if_neg same, if_neg fun h => same (latest.mp h), List.map_take, List.map_cons]

theorem recalled_content {history : List Entry} {i : Nat} (inside : i < history.length) :
    bytes (recalled history i) = (history.get ⟨i, inside⟩).content := by
  rw [recalled_get inside]
  rfl

end Entries

/-- The reference editor is in step, and its history is what the lines leave. -/
structure Recorded (s : Session) (r : Reference) : Prop where
  agrees : Agrees s.caller r
  contents : r.history.map Entry.content = recent 8 s.lines

section Record

variable {s s' : Session} {r r' : Reference} {label : Label} {labels : List Label}

theorem history_enter (hr : r.enter = some r') : ∃ e : Entry,
    e.text = trim r.text.line ∧ r'.history = remember e r.history := by
  unfold Reference.enter at hr
  split at hr
  · rename_i nonempty
    cases Option.some.inj hr
    exact ⟨⟨trim r.text.line, nonempty, _⟩, rfl, rfl⟩
  · contradiction

theorem recorded_enter (h : Recorded s r) (hr : r.enter = some r') :
    r'.history.map Entry.content =
      recent 8 (submission s.caller.editor.inputline :: s.lines) := by
  obtain ⟨e, text, stored⟩ := history_enter hr
  have content : submission s.caller.editor.inputline = e.content := by
    rw [submission, cstring_eq h.agrees.represents.edits.holds, Entry.content, text, bytes_trim]
  rw [stored, contents_remember, content, recent_cons, h.contents, head_recent (by decide)]

theorem contents_step (h : Recorded s r) (hr : reference.step r label = some r') :
    r'.history.map Entry.content = recent 8
      (if r'.eol then submission s.caller.editor.inputline :: s.lines else s.lines) := by
  cases label with
  | key c =>
    simp only [reference] at hr
    split at hr
    · contradiction
    rename_i running
    have alive : r.eol = false := Bool.eq_false_iff.mpr running
    by_cases hcr : c = ch '\r'
    · subst hcr
      have enters : r.enter = some r' := by
        rw [← hr]
        simp +decide [Reference.press]
      rw [(enter_home enters).1]
      exact recorded_enter h enters
    · have continues := continues_press hcr hr
      rw [continues.eol, alive, continues.history]
      exact h.contents
  | finish nuls =>
    simp only [reference] at hr
    split at hr
    · cases Option.some.inj hr
      exact h.contents
    · contradiction

theorem recorded_step (h : Recorded s r) (hs : session.step s label = some s') :
    ∃ r', reference.step r label = some r' ∧ Recorded s' r' := by
  obtain ⟨t, ht, rfl⟩ := Option.map_eq_some_iff.mp hs
  obtain ⟨r', hr, agrees⟩ := reference_follows h.agrees ht
  refine ⟨r', hr, agrees, ?_⟩
  rw [contents_step h hr, ← agrees.eol]

theorem recorded_of_run (hs : session.run session.initial labels = some s) :
    ∃ r, Recorded s r := by
  obtain ⟨r, -, recorded⟩ :=
    simulation_follow (R := Recorded) (fun s r label s' h hs => recorded_step h hs)
      ⟨agrees_initial, rfl⟩ hs
  exact ⟨r, recorded⟩

end Record

/-- The history holds these lines, latest first. -/
structure Keeps (s : Editor) (lines : List (List Byte)) : Prop where
  rows : s.history.map cstring = lines ++ List.replicate (8 - lines.length) []
  nonempty : [] ∉ lines
  distinct : lines.IsChain (· ≠ ·)
  low : -1 ≤ s.h
  high : s.h ≤ 7
  selected : 0 ≤ s.h → ∃ m, row s.history s.h = .ok m ∧ cstring m ≠ []

section Keeps

variable {s : Editor} {r : Reference}

theorem row_content (h : Represents s r) {i : Nat} (hi : i < 8) :
    ∃ m, s.history[i]? = some m ∧ cstring m = bytes (recalled r.history i) := by
  obtain ⟨m, hm, holds⟩ := h.history.2 i hi
  exact ⟨m, hm, cstring_eq holds⟩

theorem rows_eq (h : Represents s r) : s.history.map cstring =
    r.history.map Entry.content ++ List.replicate (8 - r.history.length) [] := by
  have few := r.few
  have size := h.history.1
  apply List.ext_getElem?
  intro i
  rw [List.getElem?_map]
  rcases Nat.lt_or_ge i 8 with hi | out
  · obtain ⟨m, hm, content⟩ := row_content h hi
    rw [hm, Option.map_some, content]
    rcases Nat.lt_or_ge i r.history.length with inside | behind
    · rw [List.getElem?_append_left (by rw [List.length_map]; exact inside), List.getElem?_map,
        recalled_content inside, List.getElem?_eq_getElem inside]
      rfl
    · rw [List.getElem?_append_right (by rw [List.length_map]; exact behind), List.length_map,
        List.getElem?_replicate, if_pos (by omega), recalled_nil behind]
      rfl
  · rw [List.getElem?_eq_none (by omega), List.getElem?_eq_none]
    · rfl
    · rw [List.length_append, List.length_map, List.length_replicate]
      omega

theorem selected_nonempty (h : Represents s r) (some : 0 ≤ s.h) :
    ∃ m, row s.history s.h = .ok m ∧ cstring m ≠ [] := by
  have selected := h.selected
  have valid := r.valid
  have few := r.few
  obtain ⟨i, hi⟩ := Int.eq_ofNat_of_zero_le some
  have inside : i < r.history.length := by omega
  obtain ⟨m, hm, holds⟩ := row_eq h.history (i := i) (by omega)
  refine ⟨m, by rw [hi]; exact hm, ?_⟩
  rw [cstring_eq holds, recalled_content inside]
  exact content_nonempty _

theorem Recorded.keeps {s : Session} (h : Recorded s r) :
    Keeps s.caller.editor (recent 8 s.lines) where
  rows := by
    rw [rows_eq h.agrees.represents, h.contents, ← h.contents, List.length_map]
  nonempty := by
    rw [← h.contents, List.mem_map]
    rintro ⟨e, -, none⟩
    exact content_nonempty e none
  distinct := recent_isChain 8 s.lines
  low := by
    have selected := h.agrees.represents.selected
    omega
  high := by
    have selected := h.agrees.represents.selected
    have valid := r.valid
    have few := r.few
    omega
  selected := selected_nonempty h.agrees.represents

end Keeps

end MultiZone.Readline
