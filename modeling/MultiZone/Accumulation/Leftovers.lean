import MultiZone.Accumulation.Bounds

/-! What msg_handler leaves in the inboxes: an unfinished message, or one that begins
with a NUL, which is not acted on and not cleared. -/
namespace MultiZone.Accumulation
open Transition Reassembly

/-- The inboxes, and whether msg_handler has just returned; a restart does not. -/
structure Loop where
  zones : Zones
  returned : Bool

def loop : Machine Loop Zone2Turn where
  initial := ⟨zones.initial, false⟩
  step s
    | .msiIsr recv => some ⟨s.zones.receive recv, false⟩
    | .msgHandler =>
      some ⟨msgHandler s.zones, decide ¬ ∃ y, Restarts s.zones.inbox y⟩

def Cleared (s : Loop) : Prop :=
  s.returned = true → ∀ z, (s.zones.inbox z).len = 0 ∨ 0 ∉ (s.zones.inbox z).held

/-- msg_handler runs with no inbox that begins with a NUL, or comes to a restart. -/
def NoneBlank (s : Loop) : Zone2Turn → Prop
  | .msiIsr _ => True
  | .msgHandler =>
    (∃ y, Restarts s.zones.inbox y) ∨ ∀ z, (s.zones.inbox z).held.head? ≠ some 0

theorem cstring_head {mem : List Byte} : cstring mem = [] ↔ mem = [] ∨ mem.head? = some 0 := by
  cases mem with
  | nil => simp [cstring]
  | cons c rest => by_cases zero : c = 0 <;> simp [cstring, zero]

theorem complete_eq_none (i : Inbox) :
    i.complete = none ↔ i.len = 0 ∨ i.held.head? = some 0 ∨ 0 ∉ i.held := by
  have string : strnlen i.msg i.len = (cstring i.held).length := rfl
  have ends := @cstring_ends i.held
  have front : (cstring i.held).length ≤ i.held.length := (List.takeWhile_prefix _).length_le
  have head := @cstring_head i.held
  rw [i.held_eq_nil, ← List.length_eq_zero_iff] at head
  rw [i.held_length] at ends front
  unfold Inbox.complete
  dsimp only
  rw [string]
  split
  · rename_i guard
    simp only [reduceCtorEq, false_iff]
    rintro (empty | blank | none)
    · omega
    · have zero := head.mpr (.inr blank)
      omega
    · exact none (ends.mp (by omega))
  · rename_i guard
    simp only [true_iff]
    rcases Nat.eq_zero_or_pos (cstring i.held).length with zero | positive
    · exact (head.mp zero).imp_right .inl
    · exact .inr (.inr fun nul => guard ⟨positive, (ends.mpr nul).ne⟩)

theorem left_behind {s : Zones} (none_restarts : ¬ ∃ y, Restarts s.inbox y) (z : Fin 8) :
    ((msgHandler s).inbox z).len = 0 ∨ 0 ∉ ((msgHandler s).inbox z).held ↔
      (s.inbox z).held.head? ≠ some 0 := by
  have acts : handled s.inbox z = (s.inbox z).complete :=
    if_neg fun ⟨y, hy⟩ => none_restarts ⟨y, hy.2⟩
  have held := msgHandler_held s z
  have quiet := complete_eq_none (s.inbox z)
  simp only [none_restarts, false_or, acts] at held
  rw [← Inbox.held_eq_nil, held]
  cases hc : (s.inbox z).complete with
  | some msg =>
    rw [hc] at quiet
    simp only [reduceCtorEq, false_iff, not_or] at quiet
    simpa using quiet.2.1
  | none =>
    simp only [ne_eq, not_true_eq_false, if_false]
    have cases := quiet.mp hc
    rw [← Inbox.held_eq_nil] at cases
    constructor
    · rintro (empty | none) blank
      · rw [empty] at blank
        cases blank
      · exact none (List.mem_of_mem_head? blank)
    · intro solid
      exact cases.imp_right fun blank_or => blank_or.resolve_left solid

/-- The handler leaves no terminated message in a run exactly if it never runs with
an inbox that begins with a NUL. -/
theorem cleared_iff_noneBlank (turns : List Zone2Turn) :
    loop.Always Cleared loop.initial turns ↔ loop.Obeys NoneBlank loop.initial turns := by
  apply Machine.always_iff_obeys (J := fun _ => True)
  · intros
    trivial
  · intro s a t _ _ hs
    cases a with
    | msiIsr recv =>
      obtain rfl := Option.some.inj hs
      exact iff_of_true (fun returned => (by cases returned)) trivial
    | msgHandler =>
      obtain rfl := Option.some.inj hs
      unfold Cleared NoneBlank
      by_cases restart : ∃ y, Restarts s.zones.inbox y
      · simp [restart]
      · simp only [restart, not_false_eq_true, decide_true, forall_const, false_or]
        exact forall_congr' (left_behind restart)
  · intro returned
    cases returned
  · trivial

def blankBlock (sender : Fin 8) : List Zone2Turn :=
  [.msiIsr fun z => if z = sender then some .zero else none, .msgHandler]

theorem blankBlock_left :
    ∃ s, loop.run loop.initial (blankBlock 0) = some s ∧ s.returned = true ∧
      (s.zones.inbox 0).len = 16 ∧ 0 ∈ (s.zones.inbox 0).held ∧ ¬ Cleared s := by
  have stays : ∃ s, loop.run loop.initial (blankBlock 0) = some s ∧ s.returned = true ∧
      (s.zones.inbox 0).len = 16 ∧ 0 ∈ (s.zones.inbox 0).held :=
    ⟨_, rfl, rfl, rfl, List.mem_cons_self⟩
  obtain ⟨s, runs, returned, len, nul⟩ := stays
  refine ⟨s, runs, returned, len, nul, fun cleared => ?_⟩
  rcases cleared returned 0 with empty | none
  · omega
  · exact none nul

end MultiZone.Accumulation
