import MultiZone.Readline.Refinement

/-! Where readline leaves its arrays: the loop that removes the spaces at the end of
a line does not stop at its start. -/
namespace MultiZone.Readline
open Editing Transition

/-- readline and its caller until an access is out of bounds; nothing can be said
about what is done then. -/
def watched : Machine (Except Fault Caller) Label where
  initial := .ok editor.initial
  step x label :=
    match x with
    | .error fault => some (.error fault)
    | .ok s =>
      match label with
      | .key c =>
        if s.eol then none
        else some ((readline c s.editor).map fun r => ⟨r.2.1, r.1⟩)
      | .finish nuls => (editor.step s (.finish nuls)).map .ok

def InArrays : Except Fault Caller → Prop
  | .ok _ => True
  | .error _ => False

/-- No carriage return on a line that is empty or has only spaces. -/
def NotBlank : Except Fault Caller → Label → Prop
  | .ok s, .key c => ¬ (c = ch '\r' ∧ ∀ b ∈ cstring s.editor.inputline, b = ch ' ')
  | _, _ => True

def Attended (x : Except Fault Caller) : Prop := ∀ s, x = .ok s → ∃ r, Agrees s r

section Steps

variable {s : Caller} {r : Reference} {c : Byte} {x : Except Fault Caller} {label : Label}

theorem press_none_iff (h : Agrees s r) : r.press c = none ↔
    c = ch '\r' ∧ ∀ b ∈ cstring s.editor.inputline, b = ch ' ' := by
  rw [Reference.press_eq_none, cstring_eq h.represents.edits.holds]
  simp only [bytes, List.forall_mem_map]

theorem readline_ok_iff (h : Agrees s r) (alive : s.eol = false) :
    (∃ result, readline c s.editor = .ok result) ↔ r.press c ≠ none := by
  constructor
  · rintro ⟨result, ok⟩ none
    rw [readline_blank h.represents none] at ok
    cases ok
  · intro some
    obtain ⟨r', hr⟩ := Option.ne_none_iff_exists'.mp some
    obtain ⟨s', echo, reads, -, -⟩ := readline_press h.represents (h.eol ▸ alive) hr
    exact ⟨_, reads⟩

theorem inArrays_map {out : Except Fault (Bool × Editor × List Echo)} :
    InArrays (out.map fun r => (⟨r.2.1, r.1⟩ : Caller)) ↔ ∃ result, out = .ok result := by
  cases out with
  | ok result => exact iff_of_true trivial ⟨result, rfl⟩
  | error fault => exact iff_of_false id fun ⟨_, ok⟩ => (by cases ok)

theorem inArrays_step (x : Except Fault Caller) (label : Label) (y : Except Fault Caller)
    (inside : InArrays x) (attended : Attended x) (hs : watched.step x label = some y) :
    InArrays y ↔ NotBlank x label := by
  cases x with
  | error fault => cases inside
  | ok s =>
    obtain ⟨r, agrees⟩ := attended s rfl
    cases label with
    | key c =>
      simp only [watched] at hs
      split at hs
      · cases hs
      · rename_i running
        cases Option.some.inj hs
        have alive : s.eol = false := Bool.eq_false_iff.mpr running
        rw [inArrays_map, readline_ok_iff agrees alive]
        exact not_congr (press_none_iff agrees)
    | finish nuls =>
      obtain ⟨t, -, rfl⟩ := Option.map_eq_some_iff.mp hs
      exact iff_of_true trivial trivial

theorem watched_ok {t : Caller} (hs : watched.step (.ok s) label = some (.ok t)) :
    editor.step s label = some t := by
  cases label with
  | key c =>
    simp only [watched] at hs
    simp only [editor]
    split at hs
    · cases hs
    · rename_i running
      rw [if_neg running]
      cases reads : readline c s.editor with
      | error fault =>
        rw [reads] at hs
        cases Option.some.inj hs
      | ok result =>
        rw [reads] at hs
        cases Option.some.inj hs
        rfl
  | finish nuls =>
    obtain ⟨t', ht, eq⟩ := Option.map_eq_some_iff.mp hs
    cases eq
    exact ht

theorem attended_step (x : Except Fault Caller) (label : Label) (y : Except Fault Caller)
    (inside : InArrays x) (attended : Attended x) (_ : NotBlank x label)
    (hs : watched.step x label = some y) : Attended y := by
  rintro t rfl
  cases x with
  | error fault => cases inside
  | ok s =>
    obtain ⟨r, agrees⟩ := attended s rfl
    obtain ⟨r', -, agrees'⟩ := reference_follows agrees (watched_ok hs)
    exact ⟨r', agrees'⟩

end Steps

/-- readline stays inside inputline and history as long as no blank line is entered,
and no longer. -/
theorem inArrays_iff_notBlank (labels : List Label) :
    watched.Always InArrays watched.initial labels ↔
      watched.Obeys NotBlank watched.initial labels := by
  have start : Attended watched.initial := by
    intro s same
    cases same
    exact ⟨_, agrees_initial⟩
  exact Machine.always_iff_obeys attended_step inArrays_step labels trivial start

theorem blankLine_outOfBounds :
    watched.run watched.initial [.key (ch '\r')] = some (.error .outOfBounds) ∧
      ¬ watched.Always InArrays watched.initial [.key (ch '\r')] := by
  refine ⟨rfl, fun inside => ?_⟩
  exact inside.2

end MultiZone.Readline
