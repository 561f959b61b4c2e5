import MultiZone.Editing.Terminal
import MultiZone.Readline.Refinement

/-! What zone 2 prints while a line is edited, on a terminal that has the prompt in
its current row. -/
namespace MultiZone.Readline
open Editing Transition

def promptText : List Byte := ascii ['Z', '2', ' ', '>', ' ']

/-- The bytes that zone 2 writes. -/
def render : Echo → List Byte
  | .saveCursor => ascii ['\x1b', '7']
  | .restoreCursor => ascii ['\x1b', '8']
  | .clearRight => ascii ['\x1b', '[', 'K']
  | .clearLine => ascii ['\x1b', '[', '2', 'K']
  | .cursorRight => ascii ['\x1b', '[', 'C']
  | .cursorLeft => ascii ['\x1b', '[', 'D']
  | .prompt => ascii ['\r', 'Z', '2', ' ', '>', ' ']
  | .newline => ascii ['\n']
  | .input text => text

/-- readline takes the bytes one after the other, and writes to the terminal. -/
def typing {w : Nat} : List Byte → Editor × Terminal w → Option (Editor × Terminal w)
  | [], x => some x
  | c :: keys, (s, t) =>
    match readline c s with
    | .ok (_, s', echo) =>
      (t.receive (echo.flatMap render)).bind fun t' => typing keys (s', t')
    | .error _ => none

/-- The prompt was just printed: at the start, or when the caller is done with a line. -/
def Prompted (s : Caller) : Prop :=
  s = editor.initial ∨ ∃ labels before nuls,
    editor.run editor.initial labels = some before ∧
      editor.step before (.finish nuls) = some s

section Lines

variable {w : Nat} {t : Terminal w} {z z' : Zipper Printable 32}

/-- The row is the prompt with the line behind it, and the cursor is where it is in the line. -/
def ShowsLine (t : Terminal w) (z : Zipper Printable 32) : Prop :=
  t.Shows (promptText ++ bytes z.line) (5 + z.position)

theorem bytes_length (l : List Printable) : (bytes l).length = l.length := List.length_map _

theorem bytes_printable (l : List Printable) : ∀ c ∈ bytes l, Terminal.isPrintable c := by
  intro c hc
  obtain ⟨b, _, rfl⟩ := List.mem_map.mp hc
  have low : Char.toUInt8 ' ' ≤ b.val := b.property.1
  have high : b.val ≤ Char.toUInt8 '~' := b.property.2
  simp [Terminal.isPrintable, low, high]

theorem showsLine_split (same : z'.left = z.left) (h : ShowsLine t z) :
    t.Shows ((promptText ++ bytes z'.left.reverse) ++ bytes z.right)
      (promptText ++ bytes z'.left.reverse).length := by
  have col : (promptText ++ bytes z'.left.reverse).length = 5 + z.position := by
    rw [List.length_append, bytes_length, List.length_reverse, same]
    rfl
  rw [col, List.append_assoc, same, ← bytes_line]
  exact h

theorem redraw_gives (wide : 40 < w) (same : z'.left = z.left) (h : ShowsLine t z) :
    t.Gives ((redraw z').flatMap render) fun u => ShowsLine u z' := by
  have fits := z'.fits
  have left : (promptText ++ bytes z'.left.reverse).length = 5 + z'.position := by
    rw [List.length_append, bytes_length, List.length_reverse]
    rfl
  have room : 5 + z'.position + (bytes z'.right).length < w := by
    have := bytes_length z'.right
    have : z'.position = z'.left.length := rfl
    omega
  have rewritten := Terminal.rewrite_gives (showsLine_split same h)
    (bytes_printable z'.right) (by rw [left]; exact room)
  rw [left, List.append_assoc, ← bytes_line] at rewritten
  have sent : (redraw z').flatMap render = [Terminal.escapeByte, '7'.toUInt8] ++
      ([Terminal.escapeByte, '['.toUInt8, 'K'.toUInt8] ++ (bytes z'.right ++
        [Terminal.escapeByte, '8'.toUInt8])) := by
    simp only [redraw, List.flatMap_cons, List.flatMap_nil, List.append_nil, render]
    rfl
  rw [sent]
  exact rewritten

theorem recall_gives (wide : 40 < w) {l : List Printable} (fits : l.length ≤ 32) {col : Nat}
    {text : List Byte} (h : t.Shows text col) :
    t.Gives ([Echo.clearLine, .prompt, .input (bytes l)].flatMap render) fun u =>
      ShowsLine u (.atEnd l fits) := by
  have sent : [Echo.clearLine, .prompt, .input (bytes l)].flatMap render =
      [Terminal.escapeByte, '['.toUInt8, '2'.toUInt8, 'K'.toUInt8] ++
        (['\r'.toUInt8] ++ (promptText ++ bytes l)) := by
    simp only [List.flatMap_cons, List.flatMap_nil, List.append_nil, render]
    rfl
  have length : (promptText ++ bytes l).length = 5 + l.length := by
    rw [List.length_append, bytes_length]
    rfl
  have prompt : ∀ c ∈ promptText, Terminal.isPrintable c := List.all_eq_true.mp rfl
  have printable : ∀ c ∈ promptText ++ bytes l, Terminal.isPrintable c := fun c hc =>
    (List.mem_append.mp hc).elim (prompt c) (bytes_printable l c)
  rw [sent]
  apply (Terminal.clearLine_gives h).append
  intro t₁ shows
  apply (Terminal.return_gives shows).append
  intro t₂ shows
  obtain ⟨t₃, received, shows, _⟩ := Terminal.write_gives (a := []) shows printable (by
    rw [length]
    simp
    omega)
  refine ⟨t₃, received, ?_⟩
  rw [List.nil_append, length] at shows
  have position : (Zipper.atEnd l fits).position = l.length := List.length_reverse
  unfold ShowsLine
  rw [Zipper.line_atEnd, position]
  exact shows

theorem cursorLeft_gives (more : 0 < z.position) (h : ShowsLine t z) :
    t.Gives (render .cursorLeft) fun u => ShowsLine u z.moveLeft := by
  obtain ⟨u, received, shows⟩ := Terminal.left_gives h
  refine ⟨u, received, ?_⟩
  unfold ShowsLine
  rw [z.line_moveLeft, z.position_moveLeft, ← Nat.add_sub_assoc more]
  exact shows

theorem cursorRight_gives (wide : 40 < w) (h : ShowsLine t z) (inside : z.position < 32)
    (line : z'.line = z.line) (position : z'.position = z.position + 1) :
    t.Gives (render .cursorRight) fun u => ShowsLine u z' := by
  obtain ⟨u, received, shows⟩ := Terminal.right_gives h (by omega)
  refine ⟨u, received, ?_⟩
  unfold ShowsLine
  rw [line, position]
  exact shows

theorem prints_gives (wide : 40 < w) {echo : List Echo} (prints : Prints z z' echo)
    (h : ShowsLine t z) : t.Gives (echo.flatMap render) fun u => ShowsLine u z' := by
  cases prints with
  | nothing => exact ⟨t, rfl, h⟩
  | delete => exact redraw_gives wide z.left_delete h
  | backspace more =>
    rw [List.flatMap_cons]
    apply (cursorLeft_gives more h).append
    intro u shows
    rw [Zipper.backspace_eq more]
    exact redraw_gives wide z.moveLeft.left_delete shows
  | insert c room =>
    rw [List.flatMap_append]
    apply (redraw_gives wide (Zipper.left_moveLeft_insert c room) h).append
    intro u shows
    have position : (z.insert c).moveLeft.position = z.position := by
      rw [Zipper.position_moveLeft, Zipper.position_insert c room, Nat.add_sub_cancel]
    rw [List.flatMap_singleton]
    apply cursorRight_gives wide shows (by omega) (Zipper.line_moveLeft _).symm
    rw [Zipper.position_insert c room, position]
  | right more =>
    have fits := z.fits
    have some := List.length_pos_iff.mpr more
    have inside : z.position < 32 := by
      change z.left.length < 32
      omega
    exact cursorRight_gives wide h inside z.line_moveRight (Zipper.position_moveRight more)
  | left more => exact cursorLeft_gives more h
  | recallLine l fits => exact recall_gives wide fits h

end Lines

section Typing

variable {w : Nat} {t : Terminal w} {s : Editor} {r : Reference} {keys : List Byte}

theorem typing_shows (wide : 40 < w) (noCR : ch '\r' ∉ keys) (h : Represents s r)
    (alive : r.eol = false) (shows : ShowsLine t r.text) :
    ∃ s' t' r', typing keys (s, t) = some (s', t') ∧ Represents s' r' ∧ ShowsLine t' r'.text := by
  induction keys generalizing s t r with
  | nil => exact ⟨s, t, r, rfl, h, shows⟩
  | cons c keys ih =>
    rw [List.mem_cons, not_or] at noCR
    have hcr : c ≠ ch '\r' := Ne.symm noCR.1
    obtain ⟨r₁, hr⟩ : ∃ r₁, r.press c = some r₁ :=
      Option.ne_none_iff_exists'.mp fun none => hcr (Reference.press_eq_none.mp none).1
    obtain ⟨s₁, echo, reads, represents, prints⟩ := readline_press h alive hr
    obtain ⟨t₁, received, shows₁⟩ := prints_gives wide (prints hcr) shows
    obtain ⟨s', t', r', typed, final⟩ :=
      ih noCR.2 represents ((continues_press hcr hr).eol.trans alive) shows₁
    refine ⟨s', t', r', ?_, final⟩
    simp only [typing, reads, received, Option.bind_some]
    exact typed

theorem prompted_represents {s : Caller} (prompted : Prompted s) :
    ∃ r, Represents s.editor r ∧ r.eol = false ∧ r.text = .empty := by
  rcases prompted with rfl | ⟨labels, before, nuls, reached, done⟩
  · exact ⟨_, agrees_initial.represents, rfl, rfl⟩
  · obtain ⟨r, agrees⟩ := agrees_of_run reached
    obtain ⟨r', hr, agrees'⟩ := reference_follows agrees done
    refine ⟨r', agrees'.represents, ?_⟩
    simp only [reference] at hr
    split at hr
    · cases Option.some.inj hr
      exact ⟨rfl, rfl⟩
    · contradiction

/-- From a prompt on, after any bytes without a carriage return, the row is the prompt
followed by the line, and the cursor is where the next byte goes. -/
theorem terminal_shows_inputline (wide : 40 < w) {s : Caller} (prompted : Prompted s)
    (shows : t.Shows promptText 5) (noCR : ch '\r' ∉ keys) :
    ∃ s' t', typing keys (s.editor, t) = some (s', t') ∧
      t'.Shows (promptText ++ cstring s'.inputline) (5 + s'.p) := by
  obtain ⟨r, represents, alive, empty⟩ := prompted_represents prompted
  have start : ShowsLine t r.text := by
    rw [empty]
    exact shows
  obtain ⟨s', t', r', typed, represents', shows'⟩ := typing_shows wide noCR represents alive start
  refine ⟨s', t', typed, ?_⟩
  rw [cstring_eq represents'.edits.holds, represents'.edits.cursor]
  exact shows'

def prompted80 : Terminal 80 where
  row := promptText ++ List.replicate 75 Terminal.blank
  width := rfl
  col := 5
  saved := 0
  mode := .ground

theorem prompted80_shows : ∃ s' t',
    typing (ascii ['h', 'i', '\x1b', '[', 'D']) (editor.initial.editor, prompted80) =
      some (s', t') ∧ t'.Shows (promptText ++ cstring s'.inputline) (5 + s'.p) :=
  terminal_shows_inputline (by decide) (.inl rfl) ⟨rfl, rfl, rfl⟩ (by decide)

end Typing

end MultiZone.Readline
