import MultiZone.Message
import MultiZone.Transition.Preemption
import Mathlib.Logic.Function.Basic

/-! The inbox of harts 1 to 4 and of zone 3: the software-interrupt handler
copies what MZONE_RECV returns into one entry a zone, and the main loop acts on
an entry whose first byte is not NUL and then clears that byte. The five
applications share the pattern and differ in what is masked when. -/
namespace MultiZone.Inbox
open Transition

inductive Reaction where
  | none
  | restart
  | setMie (on : Bool)
  | block
  deriving DecidableEq, Repr

/-- An application with zones 0 to `last`. `probes`: the pass over the inbox is
made when inbox_is_empty() is false. `perZone`: the interrupt is masked for one
zone at a time and not for the pass. `polls`: with the global interrupt off the
main loop receives by itself after its pause. -/
structure App where
  last : Nat
  probes : Bool
  perZone : Bool
  polls : Bool
  react : Message → Reaction

namespace App

abbrev Zone (app : App) : Type := Fin (app.last + 1)

inductive Pc (app : App) where
  | probe (zone : app.Zone)
  | mask (zone : app.Zone)
  | test (zone : app.Zone)
  | act (zone : app.Zone)
  | clear (zone : app.Zone)
  | unmask (zone : app.Zone)
  | poll
  deriving DecidableEq

def Pc.unmasked {app : App} : Pc app → Bool
  | .probe _ | .mask _ | .poll => true
  | .test _ | .act _ | .clear _ | .unmask _ => false

/-- `mie` is the global interrupt enable, which zone 3's messages switch. The
last three fields are the history: the messages with a first byte that were
accepted and those acted on, and whether a zone's last one is still to be
passed over. -/
structure Mem (app : App) where
  inbox : app.Zone → Message
  mie : Bool
  blocked : Bool
  accepted : app.Zone → List Message
  acted : app.Zone → List Message
  waiting : app.Zone → Bool

/-- What MZONE_RECV returns for each zone, none when it returns 0. -/
abbrev Received (app : App) : Type := app.Zone → Option Message

def Mem.receive {app : App} (s : Mem app) (recv : Received app) : Mem app :=
  { s with
    inbox := fun z => (recv z).getD (s.inbox z)
    accepted := fun z => s.accepted z ++ (recv z).toList.filter (·.first ≠ 0)
    waiting := fun z => s.waiting z || (recv z).any (·.first ≠ 0) }

def top (app : App) : Pc app := if app.probes then .probe 0 else .mask 0

def afterZone {app : App} (zone : app.Zone) : Pc app :=
  if h : zone.val < app.last then
    if app.perZone then .unmask zone else .test ⟨zone.val + 1, Nat.succ_lt_succ h⟩
  else .unmask zone

def afterUnmask {app : App} (zone : app.Zone) : Pc app :=
  if h : zone.val < app.last then .mask ⟨zone.val + 1, Nat.succ_lt_succ h⟩
  else if app.polls then .poll else app.top

/-- `_start` loads the data and clears the bss before main runs anew. -/
def Mem.restart {app : App} (s : Mem app) : Mem app :=
  { s with inbox := fun _ => .zero, mie := true, waiting := fun _ => false }

def Mem.act {app : App} (s : Mem app) (zone : app.Zone) : Point (Pc app) (Mem app) :=
  let msg := s.inbox zone
  let s : Mem app := { s with
    acted := Function.update s.acted zone (s.acted zone ++ [msg])
    waiting := Function.update s.waiting zone false }
  match app.react msg with
  | .none => ⟨.clear zone, s⟩
  -- the jump to _start leaves the handler: nothing is cleared or unmasked after it
  | .restart => ⟨app.top, s.restart⟩
  | .setMie on => ⟨.clear zone, { s with mie := on }⟩
  | .block => ⟨.clear zone, { s with mie := false, blocked := true }⟩

def main (app : App) (recv : Received app) (pc : Pc app) (s : Mem app) :
    Option (Point (Pc app) (Mem app)) :=
  if s.blocked then none
  else some <| match pc with
  | .probe z =>
    if (s.inbox z).first ≠ 0 then ⟨.mask 0, s⟩
    else if h : z.val < app.last then ⟨.probe ⟨z.val + 1, Nat.succ_lt_succ h⟩, s⟩
    else ⟨app.top, s⟩
  | .mask z => ⟨.test z, s⟩
  | .test z => if (s.inbox z).first ≠ 0 then ⟨.act z, s⟩ else ⟨afterZone z, s⟩
  | .act z => s.act z
  | .clear z => ⟨afterZone z, { s with inbox := Function.update s.inbox z (s.inbox z).clear }⟩
  | .unmask z => ⟨afterUnmask z, s⟩
  | .poll => ⟨app.top, if s.mie then s else s.receive recv⟩

def handler (app : App) (recv : Received app) (pc : Pc app) (s : Mem app) : Option (Mem app) :=
  if pc.unmasked ∧ s.mie then some (s.receive recv) else none

def program (app : App) : Program (Pc app) (Mem app) (Received app) (Received app) where
  entry := app.top
  memory := ⟨fun _ => .zero, true, false, fun _ => [], fun _ => [], fun _ => false⟩
  statement := app.main
  interrupt := app.handler

end App

/-- Harts 1 to 3: `if (!inbox_is_empty()) msg_handler();`, which disables
interrupts for its pass. -/
def hart1 : App := ⟨3, true, false, false, fun _ => .none⟩
def hart2 : App := hart1
def hart3 : App := hart1

/-- Hart 4: MSIP masked around each zone. -/
def hart4 : App := ⟨3, false, true, false, fun _ => .none⟩

def zone3React (m : Message) : Reaction :=
  if m.is (ascii ['p', 'i', 'n', 'g']) then .none
  else if m.is (ascii ['r', 'e', 's', 't', 'a', 'r', 't']) then .restart
  else if m.is (ascii ['m', 's', 't', 'a', 't', 'u', 's', '.', 'm', 'i', 'e', '=', '0']) then
    .setMie false
  else if m.is (ascii ['m', 's', 't', 'a', 't', 'u', 's', '.', 'm', 'i', 'e', '=', '1']) then
    .setMie true
  else if m.is (ascii ['b', 'l', 'o', 'c', 'k']) then .block
  else .none

/-- Zone 3: MSIP masked for the pass over the eight zones. -/
def zone3 : App := ⟨7, false, false, true, zone3React⟩

namespace App

variable {app : App}

/-- What is still to be acted on: an entry with a first byte, unless the main
loop stands between acting on it and clearing it. -/
def pending (pc : Pc app) (s : Mem app) (zone : app.Zone) : List Message :=
  if pc = .clear zone ∨ (s.inbox zone).first = 0 then [] else [s.inbox zone]

/-- Every accepted message has been acted on once, in order, or is the one entry
still to be acted on. -/
def Delivered (p : Point (Pc app) (Mem app)) : Prop :=
  ∀ z, p.mem.accepted z = p.mem.acted z ++ pending p.pc p.mem z

def InTurn (s : Mem app) (recv : Received app) : Prop :=
  ∀ z, recv z ≠ none → s.waiting z = false

/-- The order of the events: messages of a zone come in turn with the passes over
its entry, and zone 3 restarts only with nothing else waiting. -/
def Spaced (p : Point (Pc app) (Mem app)) : Turn (Received app) (Received app) → Prop
  | .interrupt recv => InTurn p.mem recv
  | .statement recv =>
    match p.pc with
    | .poll => p.mem.mie = false → InTurn p.mem recv
    | .act z => app.react (p.mem.inbox z) = .restart → ∀ y, y ≠ z → p.mem.waiting y = false
    | _ => True

structure Settled (p : Point (Pc app) (Mem app)) : Prop where
  waiting : ∀ z, p.mem.waiting z = true ↔ pending p.pc p.mem z ≠ []
  tested : ∀ z, p.pc = .act z → (p.mem.inbox z).first ≠ 0

theorem pending_of_ne {pc : Pc app} {s : Mem app} {z : app.Zone} (ne : pc ≠ .clear z) :
    pending pc s z = if (s.inbox z).first = 0 then [] else [s.inbox z] := by
  simp [pending, ne]

theorem Pc.unmasked_ne {pc : Pc app} (hu : pc.unmasked = true) (z : app.Zone) :
    pc ≠ .clear z := by
  rintro rfl
  cases hu

theorem top_unmasked (app : App) : app.top.unmasked = true := by
  unfold top
  split <;> rfl

theorem afterZone_ne (zone z : app.Zone) : afterZone zone ≠ .clear z ∧ afterZone zone ≠ .act z := by
  unfold afterZone
  split
  · split <;> simp
  · simp

theorem afterUnmask_unmasked (zone : app.Zone) : (afterUnmask zone).unmasked = true := by
  unfold afterUnmask
  split
  · rfl
  · split
    · rfl
    · exact top_unmasked app

theorem Pc.unmasked_ne_act {pc : Pc app} (hu : pc.unmasked = true) (z : app.Zone) :
    pc ≠ .act z := by
  rintro rfl
  cases hu

theorem Settled.waiting_false {p : Point (Pc app) (Mem app)} (h : Settled p) (z : app.Zone) :
    p.mem.waiting z = false ↔ pending p.pc p.mem z = [] := by
  have hw := h.waiting z
  cases hz : p.mem.waiting z <;> simp_all

theorem receive_pending {pc pc' : Pc app} {s : Mem app} {recv : Received app}
    (hu : pc.unmasked = true) (hu' : pc'.unmasked = true) (z : app.Zone) :
    pending pc' (s.receive recv) z =
      (recv z).elim (pending pc s z) fun m => if m.first = 0 then [] else [m] := by
  rw [pending_of_ne (Pc.unmasked_ne hu' z), pending_of_ne (Pc.unmasked_ne hu z)]
  cases hr : recv z <;> simp [Mem.receive, hr]

/-- What an arrival does to the balance: it is kept exactly if the entry was
free for every zone something arrives for. -/
theorem receive_delivered {pc pc' : Pc app} {s : Mem app} {recv : Received app}
    (hu : pc.unmasked = true) (hu' : pc'.unmasked = true) (h : Delivered ⟨pc, s⟩)
    (settled : Settled ⟨pc, s⟩) : Delivered ⟨pc', s.receive recv⟩ ↔ InTurn s recv := by
  refine forall_congr' fun z => ?_
  have balance := h z
  dsimp only at balance ⊢
  rw [receive_pending hu hu', settled.waiting_false z]
  simp only [Mem.receive]
  rw [balance]
  cases hr : recv z with
  | none => simp
  | some m => by_cases hm : m.first = 0 <;> simp [hm]

theorem receive_settled {pc pc' : Pc app} {s : Mem app} {recv : Received app}
    (hu : pc.unmasked = true) (hu' : pc'.unmasked = true) (settled : Settled ⟨pc, s⟩)
    (turn : InTurn s recv) : Settled ⟨pc', s.receive recv⟩ := by
  refine ⟨fun z => ?_, fun z hz => absurd hz (Pc.unmasked_ne_act hu' z)⟩
  have hw := settled.waiting z
  have ht := turn z
  dsimp only at hw ⊢
  rw [receive_pending hu hu']
  cases hr : recv z with
  | none => simpa [Mem.receive, hr] using hw
  | some m =>
    have free := ht (by simp [hr])
    by_cases hm : m.first = 0 <;> simp [Mem.receive, hr, hm, free]

theorem Delivered.goto {pc pc' : Pc app} {s : Mem app} (h : Delivered ⟨pc, s⟩)
    (ne : ∀ z, pc ≠ .clear z) (ne' : ∀ z, pc' ≠ .clear z) : Delivered ⟨pc', s⟩ := by
  intro z
  have balance := h z
  dsimp only at balance ⊢
  rw [pending_of_ne (ne z)] at balance
  rw [pending_of_ne (ne' z), balance]

theorem Settled.goto {pc pc' : Pc app} {s : Mem app} (h : Settled ⟨pc, s⟩)
    (ne : ∀ z, pc ≠ .clear z) (ne' : ∀ z, pc' ≠ .clear z)
    (tested : ∀ z, pc' = .act z → (s.inbox z).first ≠ 0) : Settled ⟨pc', s⟩ := by
  refine ⟨fun z => ?_, tested⟩
  have hw := h.waiting z
  dsimp only at hw ⊢
  rw [pending_of_ne (ne z)] at hw
  rw [pending_of_ne (ne' z), hw]

theorem act_delivered {s : Mem app} {zone : app.Zone} (h : Delivered ⟨.act zone, s⟩)
    (settled : Settled ⟨.act zone, s⟩) : Delivered (s.act zone) ↔
      (app.react (s.inbox zone) = .restart → ∀ y, y ≠ zone → s.waiting y = false) := by
  have tested := settled.tested zone rfl
  have moved : s.accepted zone = s.acted zone ++ [s.inbox zone] := by
    have balance := h zone
    simpa [pending, tested] using balance
  have others : ∀ y, y ≠ zone → s.accepted y = s.acted y ++ pending (.act zone) s y :=
    fun y _ => h y
  have free := settled.waiting_false
  dsimp only at tested free
  by_cases restart : app.react (s.inbox zone) = .restart
  · simp only [restart, forall_const]
    constructor
    · intro delivered y hy
      have balance := delivered y
      rw [free y]
      simpa [Mem.act, restart, Mem.restart, pending, others y hy, hy] using balance
    · intro waiting z
      by_cases hz : z = zone
      · subst hz
        simp [Mem.act, restart, Mem.restart, pending, moved]
      · have none_left := (free z).mp (waiting z hz)
        have balance := others z hz
        rw [none_left] at balance
        simp [Mem.act, restart, Mem.restart, balance, hz, pending]
  · refine iff_of_true (fun z => ?_) fun hr => absurd hr restart
    cases hr : app.react (s.inbox zone) with
    | restart => exact absurd hr restart
    | none | setMie on | block =>
      by_cases hz : z = zone
      · subst hz
        simp [Mem.act, hr, pending, moved]
      · have balance := others z hz
        rw [pending_of_ne (by simp)] at balance
        have ne : (Pc.clear zone : Pc app) ≠ .clear z := fun e => hz (Pc.clear.inj e).symm
        simp [Mem.act, hr, pending, ne, balance, hz]

theorem act_settled {s : Mem app} {zone : app.Zone} (settled : Settled ⟨.act zone, s⟩)
    (alone : app.react (s.inbox zone) = .restart → ∀ y, y ≠ zone → s.waiting y = false) :
    Settled (s.act zone) := by
  cases hr : app.react (s.inbox zone) with
  | restart =>
    refine ⟨fun z => ?_, fun z hz => ?_⟩
    · simp [Mem.act, hr, Mem.restart, pending]
    · simp only [Mem.act, hr] at hz
      exact absurd hz (Pc.unmasked_ne_act (top_unmasked app) z)
  | none | setMie on | block =>
    refine ⟨fun z => ?_, fun z hz => by simp [Mem.act, hr] at hz⟩
    have hw := settled.waiting z
    by_cases hz : z = zone
    · subst hz
      simp [Mem.act, hr, pending]
    · have ne : (Pc.clear zone : Pc app) ≠ .clear z := fun e => hz (Pc.clear.inj e).symm
      dsimp only at hw
      rw [pending_of_ne (by simp)] at hw
      simp [Mem.act, hr, pending, ne, hz, hw]

/-- What is cleared is no longer to be acted on before it has been cleared. -/
theorem pending_clear (s : Mem app) (zone z : app.Zone) :
    let inbox := Function.update s.inbox zone (s.inbox zone).clear
    pending (.clear zone) s z = if (inbox z).first = 0 then [] else [inbox z] := by
  by_cases hz : z = zone
  · subst hz
    simp [pending]
  · have ne : (Pc.clear zone : Pc app) ≠ .clear z := fun e => hz (Pc.clear.inj e).symm
    simp [pending, ne, hz]

theorem clear_delivered {s : Mem app} {zone : app.Zone} {pc' : Pc app}
    (h : Delivered ⟨.clear zone, s⟩) (ne' : ∀ z, pc' ≠ .clear z) : Delivered
      ⟨pc', { s with inbox := Function.update s.inbox zone (s.inbox zone).clear }⟩ := by
  intro z
  have balance := h z
  dsimp only at balance ⊢
  rw [pending_of_ne (ne' z), balance, pending_clear]

theorem clear_settled {s : Mem app} {zone : app.Zone} {pc' : Pc app}
    (settled : Settled ⟨.clear zone, s⟩) (ne' : ∀ z, pc' ≠ .clear z)
    (ne_act : ∀ z, pc' ≠ .act z) : Settled
      ⟨pc', { s with inbox := Function.update s.inbox zone (s.inbox zone).clear }⟩ := by
  refine ⟨fun z => ?_, fun z hz => absurd hz (ne_act z)⟩
  have hw := settled.waiting z
  dsimp only at hw ⊢
  rw [pending_of_ne (ne' z), hw, pending_clear]

theorem goto_step {recv : Received app} {pc pc' : Pc app} {s : Mem app} (h : Delivered ⟨pc, s⟩)
    (settled : Settled ⟨pc, s⟩) (ne : ∀ z, pc ≠ .clear z) (ne' : ∀ z, pc' ≠ .clear z)
    (tested : ∀ z, pc' = .act z → (s.inbox z).first ≠ 0)
    (free : Spaced ⟨pc, s⟩ (.statement recv)) :
    (Delivered ⟨pc', s⟩ ↔ Spaced ⟨pc, s⟩ (.statement recv)) ∧
      (Spaced ⟨pc, s⟩ (.statement recv) → Settled ⟨pc', s⟩) :=
  ⟨iff_of_true (h.goto ne ne') free, fun _ => settled.goto ne ne' tested⟩

theorem main_step {recv : Received app} {pc : Pc app} {s : Mem app}
    {t : Point (Pc app) (Mem app)} (h : Delivered ⟨pc, s⟩) (settled : Settled ⟨pc, s⟩)
    (hs : app.main recv pc s = some t) :
    (Delivered t ↔ Spaced ⟨pc, s⟩ (.statement recv)) ∧
      (Spaced ⟨pc, s⟩ (.statement recv) → Settled t) := by
  unfold main at hs
  split at hs
  · cases hs
  have ht := (Option.some.inj hs).symm
  clear hs
  cases pc with
  | act z => exact ht ▸ ⟨act_delivered h settled, act_settled settled⟩
  | clear z =>
    have ne := afterZone_ne z
    exact ht ▸ ⟨iff_of_true (clear_delivered h fun y => (ne y).1) trivial,
      fun _ => clear_settled settled (fun y => (ne y).1) fun y => (ne y).2⟩
  | probe z =>
    dsimp only at ht
    split at ht
    · exact ht ▸ goto_step h settled (by simp) (by simp) (by simp) trivial
    · split at ht
      · exact ht ▸ goto_step h settled (by simp) (by simp) (by simp) trivial
      · have hu := top_unmasked app
        exact ht ▸ goto_step h settled (by simp) (Pc.unmasked_ne hu)
          (fun y hy => absurd hy (Pc.unmasked_ne_act hu y)) trivial
  | mask z => exact ht ▸ goto_step h settled (by simp) (by simp) (by simp) trivial
  | test z =>
    dsimp only at ht
    split at ht
    · rename_i full
      exact ht ▸ goto_step h settled (by simp) (by simp) (fun y hy => Pc.act.inj hy ▸ full) trivial
    · have ne := afterZone_ne z
      exact ht ▸ goto_step h settled (by simp) (fun y => (ne y).1)
        (fun y hy => absurd hy (ne y).2) trivial
  | unmask z =>
    have hu := afterUnmask_unmasked z
    exact ht ▸ goto_step h settled (by simp) (Pc.unmasked_ne hu)
      (fun y hy => absurd hy (Pc.unmasked_ne_act hu y)) trivial
  | poll =>
    have hu := top_unmasked app
    cases hm : s.mie with
    | true =>
      simp only [hm, if_true] at ht
      exact ht ▸ goto_step h settled (by simp) (Pc.unmasked_ne hu)
        (fun y hy => absurd hy (Pc.unmasked_ne_act hu y)) (by simp [Spaced, hm])
    | false =>
      simp only [hm, Bool.false_eq_true, if_false] at ht
      have spaced : Spaced ⟨.poll, s⟩ (.statement recv) ↔ InTurn s recv := by simp [Spaced, hm]
      rw [spaced]
      exact ht ▸ ⟨receive_delivered rfl hu h settled, receive_settled rfl hu settled⟩

theorem handler_step {recv : Received app} {pc : Pc app} {s t : Mem app}
    (h : Delivered ⟨pc, s⟩) (settled : Settled ⟨pc, s⟩) (hs : app.handler recv pc s = some t) :
    (Delivered ⟨pc, t⟩ ↔ InTurn s recv) ∧ (InTurn s recv → Settled ⟨pc, t⟩) := by
  unfold handler at hs
  split at hs
  · rename_i hu
    cases Option.some.inj hs
    exact ⟨receive_delivered hu.1 hu.1 h settled, receive_settled hu.1 hu.1 settled⟩
  · cases hs

theorem inbox_step (p : Point (Pc app) (Mem app)) (a : Turn (Received app) (Received app))
    (q : Point (Pc app) (Mem app)) (h : Delivered p) (settled : Settled p)
    (hs : app.program.machine.step p a = some q) :
    (Delivered q ↔ Spaced p a) ∧ (Spaced p a → Settled q) := by
  cases a with
  | statement recv => exact main_step h settled hs
  | interrupt recv =>
    obtain ⟨mem, hm, rfl⟩ := Option.map_eq_some_iff.mp hs
    exact handler_step h settled hm

/-- A run of any of the applications delivers every accepted message once and in
order exactly if the messages of each zone come in turn with the passes. -/
theorem delivered_iff_spaced (app : App) (turns : List (Turn (Received app) (Received app))) :
    app.program.machine.Always Delivered app.program.machine.initial turns ↔
      app.program.machine.Obeys Spaced app.program.machine.initial turns := by
  refine Machine.always_iff_obeys (J := Settled)
    (fun p a q h settled spaced hs => (inbox_step p a q h settled hs).2 spaced)
    (fun p a q h settled hs => (inbox_step p a q h settled hs).1) turns ?_ ?_
  · intro z
    simp [Program.machine, program, pending]
  · refine ⟨fun z => ?_, fun z hz => ?_⟩
    · simp [Program.machine, program, pending]
    · exact absurd hz (Pc.unmasked_ne_act (top_unmasked app) z)

end App

/-- Zone 1 sends twice before the main loop of hart 1 comes round. -/
def twoInARow : List (Turn (App.Received hart1) (App.Received hart1)) :=
  [.interrupt fun z => if z = 0 then some (.ofText (ascii ['o', 'n', 'e'])) else none,
   .interrupt fun z => if z = 0 then some (.ofText (ascii ['t', 'w', 'o'])) else none]

theorem twoInARow_overwrites :
    ∃ p, hart1.program.machine.run hart1.program.machine.initial twoInARow = some p ∧
      ¬ App.Delivered p := by
  refine ⟨_, rfl, fun h => ?_⟩
  have balance := congrArg List.length (h 0)
  exact absurd balance (by decide)

end MultiZone.Inbox
