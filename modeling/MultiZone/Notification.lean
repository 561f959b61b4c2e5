import MultiZone.Mailbox
import Mathlib.Logic.Function.Basic

/-! Hart 0 sends into the four slots of one hart; that hart drains them in its
software-interrupt handler. The sender and the handler run on two harts, so
every access of one may fall between any two of the other. -/
namespace MultiZone.Notification
open Transition Mailbox

/-- The next statement of Software_hN_IRQHandler; a RECV is one point an access. -/
inductive HandlerPc where
  | outside
  | recv (zone : Fin 4) (pc : RecvPc)
  | memcpy (zone : Fin 4)
  | clearSoftInterrupt
  deriving DecidableEq, Repr

/-- `for (Zone zone = zone1; zone <= zone4; zone++)`, zone1 being 0 here. -/
def nextZone (zone : Fin 4) : HandlerPc :=
  if h : zone.val + 1 < 4 then .recv ⟨zone.val + 1, h⟩ .entry else .clearSoftInterrupt

structure Hart where
  slots : Fin 4 → Slot
  msip : Bool
  sendPc : SendPc
  sendZone : Fin 4
  sendMsg : Payload
  handler : HandlerPc
  msg : Payload
  inbox : Fin 4 → Payload

def Hart.initial (words : Fin 4 → Payload) : Hart :=
  ⟨fun z => .free (words z), false, .entry, 0, ⟨0, 0⟩, .outside, ⟨0, 0⟩, fun _ => ⟨0, 0⟩⟩

/-- The sender's or the handler's next access. A sender between two calls starts
a SEND to the given zone; a RECV starts on a buffer with the given contents. -/
inductive HartTurn where
  | send (zone : Fin 4) (msg : Payload)
  | handler (buffer : Payload)

def storeAt (slots : Fin 4 → Slot) (zone : Fin 4) : Option Store → Fin 4 → Slot
  | none => slots
  | some st => Function.update slots zone ((slots zone).store st)

def Hart.send (s : Hart) (zone : Fin 4) (arg : Payload) : Hart :=
  let zone := if s.sendPc = .entry then zone else s.sendZone
  let msg := if s.sendPc = .entry then arg else s.sendMsg
  let access := mzoneSend (s.slots zone) msg s.sendPc
  { s with
    slots := storeAt s.slots zone access.store
    msip := s.msip || access.msip
    sendPc := match access.next with | .goto pc => pc | .ret _ => .entry
    sendZone := zone
    sendMsg := msg }

def Hart.handle (s : Hart) (buffer : Payload) : Option Hart :=
  match s.handler with
  | .outside => if s.msip then some { s with handler := .recv 0 .entry } else none
  | .recv zone pc =>
    let msg := if pc = .entry then buffer else s.msg
    let access := mzoneRecv (s.slots zone) msg pc
    some { s with
      slots := storeAt s.slots zone access.store
      msg := access.msg
      handler := match access.next with
        | .goto pc => .recv zone pc
        | .ret retVal => if retVal = 0 then nextZone zone else .memcpy zone }
  | .memcpy zone =>
    some { s with inbox := Function.update s.inbox zone s.msg, handler := nextZone zone }
  | .clearSoftInterrupt => some { s with msip := false, handler := .outside }

def hart (words : Fin 4 → Payload) : Machine Hart HartTurn where
  initial := .initial words
  step s
    | .send zone msg => some (s.send zone msg)
    | .handler buffer => s.handle buffer

def Hart.Full (s : Hart) : Prop := ∃ z, (s.slots z).flag ≠ 0

/-- Between two handler runs and two SENDs a set flag means a pending interrupt. -/
def Hart.Notified (s : Hart) : Prop :=
  s.handler = .outside → s.sendPc = .entry → ∀ z, (s.slots z).flag ≠ 0 → s.msip = true

/-- The handler clears the interrupt when the slots it has drained are still
empty, or when a SEND past its test of the flag will raise the interrupt anew. -/
def ClearedInTime (s : Hart) : HartTurn → Prop
  | .send _ _ => True
  | .handler _ => s.handler = .clearSoftInterrupt → s.Full → s.sendPc ≠ .entry

theorem nextZone_inside (zone : Fin 4) : nextZone zone ≠ .outside := by
  unfold nextZone
  split <;> simp

theorem send_ends (s : Hart) (zone : Fin 4) (arg : Payload)
    (ends : (s.send zone arg).sendPc = .entry) :
    (s.send zone arg).msip = true ∨
      s.sendPc = .entry ∧ (s.send zone arg).slots = s.slots ∧ (s.send zone arg).msip = s.msip := by
  cases hp : s.sendPc with
  | entry => exact .inr ⟨rfl, by simp [Hart.send, hp, mzoneSend, storeAt]⟩
  | swMsip => exact .inl (by simp [Hart.send, hp, mzoneSend])
  | ldMsg0 | sdWord0 | ldMsg1 | sdWord1 | sdFlag => simp [Hart.send, hp, mzoneSend] at ends

theorem send_notified (s : Hart) (zone : Fin 4) (arg : Payload) (h : s.Notified) :
    (s.send zone arg).Notified := by
  intro outside ends z full
  rcases send_ends s zone arg ends with raised | ⟨entry, slots, msip⟩
  · exact raised
  · rw [slots] at full
    rw [msip]
    exact h outside entry z full

/-- Inside the handler the property asks nothing, so only the clear decides. -/
theorem handle_outside {s t : Hart} {buffer : Payload} (hs : s.handle buffer = some t)
    (outside : t.handler = .outside) :
    s.handler = .clearSoftInterrupt ∧ t = { s with msip := false, handler := .outside } := by
  unfold Hart.handle at hs
  split at hs
  · split at hs
    · cases Option.some.inj hs; cases outside
    · cases hs
  · cases Option.some.inj hs
    exfalso
    dsimp only at outside
    split at outside
    · cases outside
    · split at outside
      · exact nextZone_inside _ outside
      · cases outside
  · cases Option.some.inj hs
    exact absurd outside (nextZone_inside _)
  · rename_i hp
    exact ⟨hp, (Option.some.inj hs).symm⟩

theorem notified_step {words : Fin 4 → Payload} (s : Hart) (a : HartTurn) (t : Hart)
    (h : s.Notified) (hs : (hart words).step s a = some t) : t.Notified ↔ ClearedInTime s a := by
  cases a with
  | send zone msg => exact iff_of_true (Option.some.inj hs ▸ send_notified s zone msg h) trivial
  | handler buffer =>
    constructor
    · intro notified clear full entry
      simp only [hart, Hart.handle, clear, Option.some.injEq] at hs
      obtain ⟨z, hz⟩ := full
      subst hs
      exact Bool.false_ne_true (notified rfl entry z hz)
    · intro inTime outside entry z full
      obtain ⟨clear, rfl⟩ := handle_outside hs outside
      exact absurd entry (inTime clear ⟨z, full⟩)

/-- A run loses no notification exactly if each of its handler runs clears the
interrupt in time. -/
theorem notified_iff_cleared_in_time (words : Fin 4 → Payload) (turns : List HartTurn) :
    (hart words).Always Hart.Notified (hart words).initial turns ↔
      (hart words).Obeys ClearedInTime (hart words).initial turns :=
  Machine.always_iff_obeys (J := fun _ => True) (fun _ _ _ _ _ _ _ => trivial)
    (fun s a t h _ hs => notified_step s a t h hs) turns
    (fun _ _ _ full => absurd rfl full) trivial

/-- One message is drained; the next arrives in zone 1's slot after the handler
has polled it and before the handler clears the interrupt. -/
def lateMessage : List HartTurn :=
  List.replicate 7 (.send 0 ⟨1, 2⟩) ++ List.replicate 11 (.handler ⟨0, 0⟩) ++
    List.replicate 7 (.send 0 ⟨3, 4⟩) ++ [.handler ⟨0, 0⟩]

theorem lateMessage_unnotified :
    ∃ s, (hart fun _ => ⟨0, 0⟩).run (hart fun _ => ⟨0, 0⟩).initial lateMessage = some s ∧
      ¬ s.Notified := by
  refine ⟨_, rfl, fun h => ?_⟩
  have raised := h (by decide) (by decide) 0 (by decide)
  exact absurd raised (by decide)

end MultiZone.Notification
