import MultiZone.Readline.Refinement

/-! Control sequences that readline does not implement. It gives one up at the first
byte that does not fit, and takes the bytes behind that one for typed text. -/
namespace MultiZone.Readline

/-- The bytes one after the other; none of them ends the line. -/
def feed : List Byte → Editor → Except Fault Editor
  | [], s => .ok s
  | c :: keys, s => (readline c s).bind fun r => feed keys r.2.1

/-- A digit or a semicolon. -/
def IsParameter (c : Byte) : Prop := ch '0' ≤ c ∧ c ≤ ch '9' ∨ c = ch ';'

/-- A letter or a tilde. -/
def IsFinal (c : Byte) : Prop :=
  ch 'A' ≤ c ∧ c ≤ ch 'Z' ∨ ch 'a' ≤ c ∧ c ≤ ch 'z' ∨ c = ch '~'

instance (c : Byte) : Decidable (IsParameter c) := inferInstanceAs (Decidable (_ ∨ _))

instance (c : Byte) : Decidable (IsFinal c) := inferInstanceAs (Decidable (_ ∨ _))

/-- ESC [ parameters final -/
def control (params : List Byte) (final : Byte) : List Byte :=
  escapeByte :: ch '[' :: (params ++ [final])

/-- The bytes leave the line, the cursor and the history alone and end outside of an
escape sequence. -/
def Ignores (keys : List Byte) (s : Editor) : Prop :=
  ∃ s', feed keys s = .ok s' ∧ s'.inputline = s.inputline ∧ s'.p = s.p ∧
    s'.history = s.history ∧ s'.h = s.h ∧ s'.esc = 0

section Bytes

variable {b c : Byte}

theorem IsParameter.printable (h : IsParameter c) : ch ' ' ≤ c ∧ c ≤ ch '~' := by
  rcases h with ⟨low, high⟩ | rfl
  · exact ⟨UInt8.le_trans (by decide) low, UInt8.le_trans high (by decide)⟩
  · decide

theorem IsFinal.printable (h : IsFinal c) : ch ' ' ≤ c ∧ c ≤ ch '~' := by
  rcases h with ⟨low, high⟩ | ⟨low, high⟩ | rfl
  · exact ⟨UInt8.le_trans (by decide) low, UInt8.le_trans high (by decide)⟩
  · exact ⟨UInt8.le_trans (by decide) low, UInt8.le_trans high (by decide)⟩
  · decide

theorem IsParameter.ne (h : IsParameter c) (hb : ¬ IsParameter b) : c ≠ b :=
  fun same => hb (same ▸ h)

theorem IsFinal.ne (h : IsFinal c) (hb : ¬ IsFinal b) : c ≠ b := fun same => hb (same ▸ h)

end Bytes

section Steps

variable {c : Byte} {s s' : Editor} {keys : List Byte}

theorem feed_cons {e : Bool} {echo : List Echo} (reads : readline c s = .ok (e, s', echo)) :
    feed (c :: keys) s = feed keys s' := by
  simp only [feed, reads, Except.bind]

theorem feed_start :
    feed (escapeByte :: ch '[' :: keys) s = feed keys { s with esc := 2 } := by
  have escape : readline escapeByte s = .ok (false, { s with esc := 1 }, []) := by
    simp [readline, escapeByte]
  have bracket : readline (ch '[') { s with esc := 1 } = .ok (false, { s with esc := 2 }, []) := by
    simp +decide [readline]
  rw [feed_cons escape, feed_cons bracket]

theorem feed_full (idle : s.esc = 0) (full : 32 ≤ s.p)
    (printable : ∀ c ∈ keys, ch ' ' ≤ c ∧ c ≤ ch '~') : feed keys s = .ok s := by
  induction keys with
  | nil => rfl
  | cons c keys ih =>
    have hc := printable c List.mem_cons_self
    have ignored := readline_ignored idle (printable_ne hc (by decide))
      (printable_ne hc (by decide))
      (fun erase => by rcases erase.1 with rfl | rfl <;> exact absurd hc (by decide))
      (fun room => absurd room.2.2 (Nat.not_lt.mpr full))
    have same : { s with esc := 0 } = s := by rw [← idle]
    rw [same] at ignored
    rw [feed_cons ignored]
    exact ih fun b hb => printable b (List.mem_cons_of_mem c hb)

theorem bind_ok {α β : Type} {x : Except Fault α} {f : α → Except Fault β} {r : β}
    (ok : x.bind f = .ok r) : ∃ a, x = .ok a ∧ f a = .ok r := by
  cases x with
  | error fault => cases ok
  | ok a => exact ⟨a, rfl, ok⟩

theorem insert_moves {echo : List Echo} (ok : insert c s = .ok (s', echo)) :
    s'.p = s.p + 1 ∧ s'.esc = s.esc := by
  obtain ⟨m₁, -, ok⟩ := bind_ok ok
  obtain ⟨m₂, -, ok⟩ := bind_ok ok
  obtain ⟨text, -, ok⟩ := bind_ok ok
  cases ok
  exact ⟨rfl, rfl⟩

theorem feed_moves (idle : s.esc = 0) (room : s.p < 32) (more : keys ≠ [])
    (printable : ∀ c ∈ keys, ch ' ' ≤ c ∧ c ≤ ch '~') (ok : feed keys s = .ok s') :
    s.p < s'.p := by
  induction keys generalizing s with
  | nil => exact absurd rfl more
  | cons c keys ih =>
    obtain ⟨⟨e, t, echo⟩, reads, rest⟩ := bind_ok ok
    rw [readline_insert idle (printable c List.mem_cons_self) room] at reads
    obtain ⟨⟨t', echo'⟩, inserts, same⟩ := bind_ok (f := fun r => .ok (false, r)) reads
    cases same
    obtain ⟨moved, calm⟩ := insert_moves inserts
    have later : ∀ b ∈ keys, ch ' ' ≤ b ∧ b ≤ ch '~' :=
      fun b hb => printable b (List.mem_cons_of_mem c hb)
    cases keys with
    | nil =>
      have done : t = s' := Except.ok.inj rest
      rw [← done]
      omega
    | cons d keys =>
      rcases Nat.lt_or_ge t.p 32 with room' | full
      · have further := ih (calm.trans idle) room' (List.cons_ne_nil d keys) later rest
        omega
      · have done : t = s' := Except.ok.inj ((feed_full (calm.trans idle) full later).symm.trans rest)
        rw [← done]
        omega

theorem ignores_typed (idle : s.esc = 0) (more : keys ≠ [])
    (printable : ∀ c ∈ keys, ch ' ' ≤ c ∧ c ≤ ch '~') : Ignores keys s ↔ 32 ≤ s.p := by
  constructor
  · rintro ⟨s', ok, -, same, -⟩
    apply Nat.le_of_not_lt
    intro room
    have moved := feed_moves idle room more printable ok
    omega
  · intro full
    exact ⟨s, feed_full idle full printable, rfl, rfl, rfl, rfl, idle⟩

theorem ignores_cons {n : Nat} (reads : readline c s = .ok (false, { s with esc := n }, [])) :
    Ignores (c :: keys) s ↔ Ignores keys { s with esc := n } := by
  unfold Ignores
  rw [feed_cons reads]

theorem ignores_nil (s : Editor) : Ignores [] { s with esc := 0 } :=
  ⟨_, rfl, rfl, rfl, rfl, rfl, rfl⟩

end Steps

section Sequences

variable {params : List Byte} {final : Byte}

theorem tail_printable (parameters : ∀ c ∈ params, IsParameter c) (ends : IsFinal final) :
    ∀ c ∈ params ++ [final], ch ' ' ≤ c ∧ c ≤ ch '~' := by
  intro c hc
  rcases List.mem_append.mp hc with inside | last
  · exact (parameters c inside).printable
  · exact (List.mem_singleton.mp last) ▸ ends.printable

/-- A parameter that is not the digit of the delete key is dropped with what came
before it, and the rest is typed. -/
theorem ignores_rest (s : Editor) (parameters : ∀ c ∈ params, IsParameter c)
    (ends : IsFinal final) :
    Ignores (params ++ [final]) { s with esc := 0 } ↔ 32 ≤ s.p :=
  ignores_typed (s := { s with esc := 0 }) rfl (by simp) (tail_printable parameters ends)

/-- A letter without a parameter is the byte at which the sequence is given up. -/
theorem bare_ignored (s : Editor) (ends : IsFinal final)
    (unknown : sequences.lookup (control [] final) = none) :
    Ignores [final] { s with esc := 2 } := by
  have other : final ∉ [ch '3', ch 'A', ch 'B', ch 'C', ch 'D'] := by
    simp only [List.mem_cons, List.not_mem_nil, or_false, not_or]
    refine ⟨ends.ne (by decide), ?_, ?_, ?_, ?_⟩
    all_goals
      rintro rfl
      exact absurd unknown (by decide)
  have dropped := dropped_bracket (s := { s with esc := 2 }) (ends.ne (by decide))
    (ends.ne (by decide)) rfl other
  exact (ignores_cons dropped).mpr (ignores_nil _)

theorem three_ignored (s : Editor) (ends : IsFinal final) (tilde : final ≠ ch '~') :
    Ignores [final] { s with esc := 3 } := by
  have dropped := dropped_three (s := { s with esc := 3 }) (ends.ne (by decide))
    (ends.ne (by decide)) rfl tilde
  exact (ignores_cons dropped).mpr (ignores_nil _)

/-- A sequence that is not implemented is ignored exactly if it has no parameter, or
just the one of the delete key, or there is no room for text at the cursor. -/
theorem ignores_iff (s : Editor) (parameters : ∀ c ∈ params, IsParameter c)
    (ends : IsFinal final) (unknown : sequences.lookup (control params final) = none) :
    Ignores (control params final) s ↔ params = [] ∨ params = [ch '3'] ∨ 32 ≤ s.p := by
  have start : Ignores (control params final) s ↔
      Ignores (params ++ [final]) { s with esc := 2 } := by
    unfold Ignores control
    rw [feed_start]
  rw [start]
  cases params with
  | nil => exact iff_of_true (bare_ignored s ends unknown) (.inl rfl)
  | cons c rest =>
    have hc := parameters c List.mem_cons_self
    have later : ∀ d ∈ rest, IsParameter d :=
      fun d hd => parameters d (List.mem_cons_of_mem c hd)
    by_cases three : c = ch '3'
    · subst three
      have leads : readline (ch '3') { s with esc := 2 } =
          .ok (false, { s with esc := 3 }, []) := by
        simp +decide [readline]
      rw [List.cons_append, ignores_cons leads]
      cases rest with
      | nil =>
        have tilde : final ≠ ch '~' := by
          rintro rfl
          exact absurd unknown (by decide)
        exact iff_of_true (three_ignored s ends tilde) (.inr (.inl rfl))
      | cons d rest =>
        have hd := later d List.mem_cons_self
        have dropped := dropped_three (s := { s with esc := 3 }) (hd.ne (by decide))
          (hd.ne (by decide)) rfl (hd.ne (by decide))
        rw [List.cons_append, ignores_cons dropped,
          ignores_rest s (fun e he => later e (List.mem_cons_of_mem d he)) ends]
        simp
    · have other : c ∉ [ch '3', ch 'A', ch 'B', ch 'C', ch 'D'] := by
        simp only [List.mem_cons, List.not_mem_nil, or_false, not_or]
        exact ⟨three, hc.ne (by decide), hc.ne (by decide), hc.ne (by decide), hc.ne (by decide)⟩
      have dropped := dropped_bracket (s := { s with esc := 2 }) (hc.ne (by decide))
        (hc.ne (by decide)) rfl other
      rw [List.cons_append, ignores_cons dropped, ignores_rest s later ends]
      simp [three]

end Sequences

/-- The key End, as some terminals send it. -/
theorem endKey_ignored : Ignores (control [] (ch 'F')) Editor.initial :=
  (ignores_iff Editor.initial (fun c hc => (by cases hc)) (by decide) (by decide)).mpr (.inl rfl)

/-- The key Home, as other terminals send it: a tilde is typed. -/
theorem homeKey_typed : ¬ Ignores (control [ch '1'] (ch '~')) Editor.initial ∧
    ∃ s', feed (control [ch '1'] (ch '~')) Editor.initial = .ok s' ∧ s'.p = 1 ∧
      cstring s'.inputline = [ch '~'] := by
  refine ⟨fun ignored => ?_, _, rfl, rfl, rfl⟩
  obtain ⟨s', ok, -, cursor, -⟩ := ignored
  cases ok
  cases cursor

end MultiZone.Readline
