import MultiZone.Accumulation.Memory
import Mathlib.Data.List.Nodup

/-! The memory always shows eight well-formed inboxes, so that every block is stored
in the inbox of its sender and every string that is read ends there. -/
namespace MultiZone.Accumulation
open Transition Reassembly

structure Shows (ram : Ram) (zone : Fin 8) (i : Inbox) : Prop where
  msg : ram.window zone inboxSize = i.msg
  len : ram.len zone = i.len

structure Represents (ram : Ram) (s : Zones) : Prop where
  shows : ∀ z, Shows ram z (s.inbox z)
  acted : ram.acted = s.acted

section Receive

variable {ram ram' : Ram} {zone : Fin 8} {i : Inbox} (recv : Fin 8 → Option Message)

theorem address_apart {y z : Fin 8} {i j : Nat} (ne : y ≠ z) (hi : i < 68) (hj : j < 68) :
    address y + i ≠ address z + j := by
  unfold address
  omega

theorem memcpy_shows (h : Shows ram zone i) (m : Message) :
    ∃ ram', ram.memcpy zone i.offset m = .ok ram' ∧
      ram'.window zone inboxSize =
        i.msg.take i.offset ++ m.bytes ++ i.msg.drop (i.offset + 16) ∧
      (∀ y ≠ zone, ram'.window y inboxSize = ram.window y inboxSize) ∧
      ram'.len = ram.len ∧ ram'.acted = ram.acted := by
  have room := i.offset_room
  refine ⟨_, if_pos room, ?_, ?_, rfl, rfl⟩
  · have stored := @Memory.window_store_inside _ ram.bytes (address zone) inboxSize i.offset
      m.bytes (m.size ▸ room)
    rw [m.size] at stored
    rw [← h.msg]
    exact stored
  · intro y other
    apply Memory.window_store_outside
    have size := m.size
    unfold address inboxSize at *
    omega

theorem receive_shows (h : Shows ram zone i) :
    ∃ ram', ram.receive recv zone = .ok ram' ∧ Shows ram' zone ((recv zone).elim i i.receive) ∧
      (∀ y ≠ zone, ∀ j, Shows ram y j → Shows ram' y j) ∧ ram'.acted = ram.acted := by
  unfold Ram.receive
  cases recv zone with
  | none => exact ⟨ram, rfl, h, fun _ _ _ shown => shown, rfl⟩
  | some m =>
    obtain ⟨ram', copied, msg, others, len, acted⟩ := memcpy_shows h m
    have offset : (if ram.len zone ≥ inboxSize then 0 else ram.len zone) = i.offset := by
      rw [h.len]
      rfl
    simp only [offset, copied, Except.map]
    refine ⟨_, rfl, ⟨msg, ?_⟩, ?_, acted⟩
    · exact Function.update_self _ _ _
    · intro y other j shown
      refine ⟨(others y other).trans shown.msg, ?_⟩
      change Function.update ram'.len zone _ y = j.len
      rw [Function.update_of_ne other, len]
      exact shown.len

theorem fold_shows {inbox : Fin 8 → Inbox} {zones : List (Fin 8)} (distinct : zones.Nodup)
    (h : ∀ z, Shows ram z (inbox z)) :
    ∃ ram', zones.foldlM (Ram.receive recv) ram = .ok ram' ∧
      (∀ z, Shows ram' z (if z ∈ zones then (recv z).elim (inbox z) (inbox z).receive
        else inbox z)) ∧ ram'.acted = ram.acted := by
  induction zones generalizing ram inbox with
  | nil => exact ⟨ram, rfl, h, rfl⟩
  | cons y rest ih =>
    obtain ⟨fresh, distinct⟩ := List.nodup_cons.mp distinct
    obtain ⟨ram₁, first, shown, others, acted₁⟩ := receive_shows recv (h y)
    have h₁ : ∀ z, Shows ram₁ z
        (Function.update inbox y ((recv y).elim (inbox y) (inbox y).receive) z) := by
      intro z
      by_cases same : z = y
      · subst same
        rw [Function.update_self]
        exact shown
      · rw [Function.update_of_ne same]
        exact others z same (inbox z) (h z)
    obtain ⟨ram', later, shows', acted'⟩ := ih distinct h₁
    refine ⟨ram', ?_, fun z => ?_, acted'.trans acted₁⟩
    · rw [List.foldlM_cons, first]
      exact later
    · have shown' := shows' z
      by_cases same : z = y
      · subst same
        rw [if_neg fresh, Function.update_self] at shown'
        rw [if_pos List.mem_cons_self]
        exact shown'
      · rw [Function.update_of_ne same] at shown'
        simp only [List.mem_cons, same, false_or]
        exact shown'

theorem msiIsr_represents {s : Zones} (h : Represents ram s) :
    ∃ ram', msiIsr recv ram = .ok ram' ∧ Represents ram' (s.receive recv) := by
  obtain ⟨ram', runs, shows, acted⟩ := fold_shows recv (List.nodup_finRange 8) h.shows
  refine ⟨ram', runs, fun z => ?_, acted.trans h.acted⟩
  have shown := shows z
  rw [if_pos (List.mem_finRange z)] at shown
  exact shown

theorem memcpy_bytes {len a : Nat} {m : Message} (runs : ram.memcpy zone len m = .ok ram')
    (changed : ram'.bytes a ≠ ram.bytes a) : ∃ i < inboxSize, a = address zone + i := by
  unfold Ram.memcpy at runs
  split at runs
  · rename_i room
    cases runs
    have low : address zone + len ≤ a := by
      apply Nat.le_of_not_lt
      intro below
      exact changed (Memory.store_apart (.inl below))
    have high : a < address zone + len + m.bytes.length := by
      apply Nat.lt_of_not_le
      intro behind
      exact changed (Memory.store_apart (.inr behind))
    rw [m.size] at high
    exact ⟨a - address zone, by omega, by omega⟩
  · cases runs

variable {recv}

theorem receive_bytes {a : Nat} (runs : ram.receive recv zone = .ok ram')
    (changed : ram'.bytes a ≠ ram.bytes a) :
    recv zone ≠ none ∧ ∃ i < inboxSize, a = address zone + i := by
  unfold Ram.receive at runs
  cases hr : recv zone with
  | none =>
    rw [hr] at runs
    cases runs
    exact absurd rfl changed
  | some m =>
    simp only [hr] at runs
    cases copied : ram.memcpy zone (if ram.len zone ≥ inboxSize then 0 else ram.len zone) m with
    | error fault =>
      rw [copied] at runs
      cases runs
    | ok ram₁ =>
      rw [copied] at runs
      cases runs
      exact ⟨Option.some_ne_none m, memcpy_bytes copied changed⟩

theorem fold_bytes {zones : List (Fin 8)} {a : Nat}
    (runs : zones.foldlM (Ram.receive recv) ram = .ok ram')
    (changed : ram'.bytes a ≠ ram.bytes a) :
    ∃ z, recv z ≠ none ∧ ∃ i < inboxSize, a = address z + i := by
  induction zones generalizing ram with
  | nil =>
    cases runs
    exact absurd rfl changed
  | cons y rest ih =>
    rw [List.foldlM_cons] at runs
    cases first : ram.receive recv y with
    | error fault =>
      rw [first] at runs
      cases runs
    | ok ram₁ =>
      rw [first] at runs
      by_cases same : ram₁.bytes a = ram.bytes a
      · exact ih runs (same ▸ changed)
      · exact ⟨y, receive_bytes first same⟩

end Receive

section Handle

variable {ram : Ram} {s : Zones} {zone : Fin 8}

theorem strnlen_represents (h : Represents ram s) :
    ram.strnlen zone = .ok (strnlen (s.inbox zone).msg (s.inbox zone).len) := by
  have shown := h.shows zone
  have fits := (s.inbox zone).fits
  rw [Ram.strnlen, shown.len, if_pos fits, shown.msg]

theorem string_complete {msg : List Byte} (h : Represents ram s)
    (complete : (s.inbox zone).complete = some msg) : ram.string zone = .ok msg := by
  have shown := h.shows zone
  obtain ⟨string, -, ends⟩ := Inbox.complete_eq_some complete
  have inside : 0 ∈ (s.inbox zone).held := cstring_ends.mp (string.symm ▸ ends)
  have nul : 0 ∈ (s.inbox zone).msg := List.mem_of_mem_take inside
  rw [Ram.string, shown.msg, if_pos nul]
  unfold Inbox.complete at complete
  dsimp only at complete
  split at complete
  · exact congrArg Except.ok (Option.some.inj complete)
  · cases complete

theorem handle_idle (h : Represents ram s) (none_complete : (s.inbox zone).complete = none) :
    ram.handle zone = .ok (afterVisit zone, ram) := by
  have shown := (h.shows zone).len
  unfold Inbox.complete at none_complete
  dsimp only at none_complete
  split at none_complete
  · cases none_complete
  · rename_i guard
    unfold Ram.handle
    rw [strnlen_represents h, shown]
    exact if_neg guard

theorem handle_complete {msg : List Byte} (h : Represents ram s)
    (complete : (s.inbox zone).complete = some msg) :
    ram.handle zone = .ok (
      let acted := Function.update s.acted zone (s.acted zone ++ [msg])
      if msg = restartText then (.outside, { Ram.initial with acted := acted })
      else (afterVisit zone,
        { ram with len := Function.update ram.len zone 0, acted := acted })) := by
  have shown := (h.shows zone).len
  have string := string_complete h complete
  unfold Inbox.complete at complete
  dsimp only at complete
  split at complete
  · rename_i guard
    unfold Ram.handle
    rw [strnlen_represents h, shown, string, h.acted]
    refine (if_pos guard).trans ?_
    change (if msg = restartText then Except.ok _ else Except.ok _) = _
    split <;> rfl
  · cases complete

theorem initial_represents (acted : Fin 8 → List (List Byte)) :
    Represents { Ram.initial with acted := acted } ⟨fun _ => .empty, acted⟩ :=
  ⟨fun _ => ⟨rfl, rfl⟩, rfl⟩

theorem reset_represents {acted : Fin 8 → List (List Byte)} (h : Represents ram s) :
    Represents { ram with len := Function.update ram.len zone 0, acted := acted }
      ⟨Function.update s.inbox zone (s.inbox zone).reset, acted⟩ := by
  refine ⟨fun z => ?_, rfl⟩
  by_cases same : z = zone
  · subst same
    dsimp only
    rw [Function.update_self]
    exact ⟨(h.shows z).msg, Function.update_self _ _ _⟩
  · dsimp only
    rw [Function.update_of_ne same]
    exact ⟨(h.shows z).msg, (Function.update_of_ne same _ _).trans (h.shows z).len⟩

/-- The zones that the loop has still to come to. -/
def Pc.left : Pc → List (Fin 8)
  | .outside => []
  | .visit zone => (List.finRange 8).drop zone.val

theorem left_visit (zone : Fin 8) :
    (Pc.visit zone).left = zone :: (afterVisit zone).left := by
  have inside : zone.val < (List.finRange 8).length := by
    rw [List.length_finRange]
    exact zone.isLt
  rw [Pc.left, List.drop_eq_getElem_cons inside, List.getElem_finRange]
  congr 1
  unfold afterVisit visitFrom
  split
  · rfl
  · rename_i last
    rw [Pc.left, List.drop_eq_nil_iff, List.length_finRange]
    omega

theorem handle_follows (zone : Fin 8) (h : Represents ram s) :
    ∃ pc ram' s', ram.handle zone = .ok (pc, ram') ∧ Represents ram' s' ∧
      visit s (Pc.visit zone).left = visit s' pc.left := by
  rw [left_visit]
  cases hc : (s.inbox zone).complete with
  | none =>
    refine ⟨afterVisit zone, ram, s, handle_idle h hc, h, ?_⟩
    simp only [visit, hc]
  | some msg =>
    have runs := handle_complete h hc
    by_cases restart : msg = restartText
    · simp only [restart, if_true] at runs
      refine ⟨_, _, _, runs, initial_represents _, ?_⟩
      simp only [visit, hc, restart, if_true, Pc.left]
    · simp only [restart, if_false] at runs
      refine ⟨_, _, _, runs, reset_represents h, ?_⟩
      simp only [visit, hc, restart, if_false]

end Handle

/-- What zone 2 does with its inboxes, with msg_handler as one step. -/
def zones : Machine Zones Zone2Turn where
  initial := ⟨fun _ => .empty, fun _ => []⟩
  step s
    | .msiIsr recv => some (s.receive recv)
    | .msgHandler => some (msgHandler s)

/-- The memory is that of the structured inboxes: of those before msg_handler,
once its rounds so far have been made. -/
def Follows (pc : Pc) (mem : Mem) (s : Zones) : Prop :=
  ∃ ram now, mem = .ok ram ∧ Represents ram now ∧
    match pc with
    | .outside => now = s
    | .visit _ => visit now pc.left = msgHandler s

def Refined (pc : Pc) (mem : Mem) : Prop :=
  ∃ turns s, zones.run zones.initial turns = some s ∧ Follows pc mem s

theorem zones_snoc {turns : List Zone2Turn} {s t : Zones} {a : Zone2Turn}
    (runs : zones.run zones.initial turns = some s) (step : zones.step s a = some t) :
    zones.run zones.initial (turns ++ [a]) = some t := by
  rw [Machine.run_append [a] runs]
  exact Machine.run_cons.mpr ⟨t, step, rfl⟩

theorem statement_refined {pc : Pc} {mem : Mem} {next : Point Pc Mem}
    (h : Refined pc mem) (hs : statement () pc mem = some next) :
    Refined next.pc next.mem := by
  obtain ⟨turns, s, runs, ram, now, rfl, shown, phase⟩ := h
  cases pc with
  | outside =>
    cases Option.some.inj hs
    exact ⟨turns, s, runs, ram, now, rfl, shown, congrArg msgHandler phase⟩
  | visit zone =>
    obtain ⟨pc, ram', now', handled, shown', loop⟩ := handle_follows zone shown
    simp only [statement, handled] at hs
    cases Option.some.inj hs
    have rest : visit now' pc.left = msgHandler s := loop.symm.trans phase
    cases pc with
    | outside =>
      have done : zones.step s .msgHandler = some now' := congrArg some rest.symm
      exact ⟨_, now', zones_snoc runs done, ram', now', rfl, shown', rfl⟩
    | visit later => exact ⟨turns, s, runs, ram', now', rfl, shown', rest⟩

theorem interrupt_refined {recv : Fin 8 → Option Message} {pc : Pc} {mem mem' : Mem}
    (h : Refined pc mem) (hi : interrupt recv pc mem = some mem') : Refined pc mem' := by
  obtain ⟨turns, s, runs, ram, now, rfl, shown, phase⟩ := h
  cases pc with
  | outside =>
    obtain rfl : now = s := phase
    obtain ⟨ram', received, shown'⟩ := msiIsr_represents recv shown
    obtain rfl := Option.some.inj hi
    exact ⟨_, now.receive recv, zones_snoc (a := .msiIsr recv) runs rfl,
      ram', now.receive recv, received, shown', rfl⟩
  | visit zone => cases hi

theorem refined : Program.Outline program (fun _ _ => True) Refined where
  enter := ⟨[], zones.initial, rfl, .initial, zones.initial, rfl, initial_represents _, rfl⟩
  advance _ _ _ _ h _ hs := statement_refined h hs
  stable _ _ _ _ h _ hi := interrupt_refined h hi

/-- msg_handler passes the zone's msg to the string functions. -/
def Passes (ram : Ram) (zone : Fin 8) : Prop :=
  ∃ len, ram.strnlen zone = .ok len ∧ len > 0 ∧ len ≠ ram.len zone

/-- Every block that arrives takes 16 bytes inside its sender's msg, and nothing
else changes. -/
structure Stored (recv : Fin 8 → Option Message) (ram ram' : Ram) : Prop where
  block : ∀ z m, recv z = some m → ∃ off, off + 16 ≤ inboxSize ∧ ram'.len z = off + 16 ∧
    ram'.window z inboxSize = (ram.window z inboxSize).take off ++ m.bytes ++
      (ram.window z inboxSize).drop (off + 16)
  silent : ∀ z, recv z = none →
    ram'.len z = ram.len z ∧ ∀ i < 68, ram'.bytes (address z + i) = ram.bytes (address z + i)
  inside : ∀ a, ram'.bytes a ≠ ram.bytes a →
    ∃ z, recv z ≠ none ∧ ∃ i < inboxSize, a = address z + i

theorem msiIsr_stored {recv : Fin 8 → Option Message} {ram : Ram} {s : Zones}
    (h : Represents ram s) : ∃ ram', msiIsr recv ram = .ok ram' ∧ Stored recv ram ram' := by
  obtain ⟨ram', runs, shown⟩ := msiIsr_represents recv h
  refine ⟨ram', runs, ⟨fun z m sent => ?_, fun z silent => ?_, fun a => fold_bytes runs⟩⟩
  · have now := shown.shows z
    simp only [Zones.receive, sent, Option.elim_some] at now
    refine ⟨(s.inbox z).offset, (s.inbox z).offset_room, now.len, ?_⟩
    rw [now.msg, (h.shows z).msg]
    rfl
  · have now := shown.shows z
    simp only [Zones.receive, silent, Option.elim_none] at now
    refine ⟨now.len.trans (h.shows z).len.symm, fun i hi => ?_⟩
    apply Decidable.byContradiction
    intro changed
    obtain ⟨y, sent, j, hj, same⟩ := fold_bytes runs changed
    have other : z ≠ y := by
      rintro rfl
      exact sent silent
    exact address_apart other hi (Nat.lt_trans hj (by decide)) same

theorem passes_terminated {ram : Ram} {s : Zones} {zone : Fin 8} (h : Represents ram s)
    (passes : Passes ram zone) : 0 ∈ ram.window zone (ram.len zone) := by
  obtain ⟨len, bounded, positive, short⟩ := passes
  have shown := h.shows zone
  obtain rfl := Except.ok.inj ((strnlen_represents h).symm.trans bounded)
  have complete : (s.inbox zone).complete = some (cstring (s.inbox zone).msg) :=
    if_pos ⟨positive, shown.len ▸ short⟩
  obtain ⟨string, -, ends⟩ := Inbox.complete_eq_some complete
  have held : ram.window zone (ram.len zone) = (s.inbox zone).held := by
    have fits := (s.inbox zone).fits
    rw [Inbox.held, ← shown.msg, ← shown.len]
    exact (Memory.window_take ram.bytes (shown.len ▸ fits)).symm
  rw [held]
  exact cstring_ends.mp (string.symm ▸ ends)

/-- In every run the lengths stay whole and inside, the blocks that may come next
are stored inside the inboxes of their senders, and strings end inside theirs. -/
theorem inbox_bounds {turns : List (Turn Unit (Fin 8 → Option Message))} {p : Point Pc Mem}
    (hr : program.machine.run program.machine.initial turns = some p) :
    ∃ ram, p.mem = .ok ram ∧ (∀ z, 16 ∣ ram.len z ∧ ram.len z ≤ inboxSize) ∧
      (∀ recv, ∃ ram', msiIsr recv ram = .ok ram' ∧ Stored recv ram ram') ∧
      ∀ z, Passes ram z → 0 ∈ ram.window z (ram.len z) := by
  obtain ⟨-, -, -, ram, now, mem, shown, -⟩ := refined.always hr
  refine ⟨ram, mem, fun z => ?_, fun recv => msiIsr_stored shown,
    fun z => passes_terminated shown⟩
  rw [(shown.shows z).len]
  exact ⟨(now.inbox z).whole, (now.inbox z).fits⟩

def oneBlock (sender : Fin 8) : List (Turn Unit (Fin 8 → Option Message)) :=
  [.interrupt fun z => if z = sender then some (.ofText (ascii ['h', 'i'])) else none,
    .statement (), .statement ()]

theorem inbox_bounds_oneBlock :
    ∃ p, program.machine.run program.machine.initial (oneBlock 1) = some p ∧ p.pc = .visit 1 ∧
      ∃ ram, p.mem = .ok ram ∧ (∀ z, 16 ∣ ram.len z ∧ ram.len z ≤ inboxSize) ∧
        (∀ recv, ∃ ram', msiIsr recv ram = .ok ram' ∧ Stored recv ram ram') ∧
        ∀ z, Passes ram z → 0 ∈ ram.window z (ram.len z) :=
  ⟨_, rfl, rfl, @inbox_bounds (oneBlock 1) _ rfl⟩

end MultiZone.Accumulation
