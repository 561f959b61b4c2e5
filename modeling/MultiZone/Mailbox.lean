import MultiZone.Transition.Channel
import Mathlib.Algebra.Group.Nat.Defs

/-! The two macros of mss_multizone.h, one memory access at a time. A slot is a
flag word and two payload words. Loads and stores of the slot take effect in
program order; what a macro does with its own registers and buffer is private,
so address arithmetic and branches go with the access they stand next to. -/
namespace MultiZone

abbrev Word := BitVec 64

structure Payload where
  word0 : Word
  word1 : Word
  deriving DecidableEq, Repr

namespace Mailbox
open Transition

structure Slot where
  flag : Word
  word0 : Word
  word1 : Word
  deriving DecidableEq, Repr

def Slot.payload (s : Slot) : Payload := ⟨s.word0, s.word1⟩

/-- A slot whose flag is clear; its payload words are what memory held. -/
def Slot.free (words : Payload) : Slot := ⟨0, words.word0, words.word1⟩

inductive Store where
  | flag (w : Word)
  | word0 (w : Word)
  | word1 (w : Word)
  deriving DecidableEq, Repr

def Slot.store (s : Slot) : Store → Slot
  | .flag w => { s with flag := w }
  | .word0 w => { s with word0 := w }
  | .word1 w => { s with word1 := w }

def ipcBase : Nat := 0x01000A00

/-- Where a slot lies in the 256 bytes of its hart: 24 bytes a zone, the slots
the hart receives from 0x80 above those it sends to. -/
def slotOffset (zone : Nat) (toHart : Bool) : Nat :=
  (zone - 1) * (8 * 3) + if toHart then 0x80 else 0x00

def slotAddr (hart zone : Nat) (toHart : Bool) : Nat :=
  ipcBase + slotOffset zone toHart + (hart - 1) * 2 ^ 8

theorem slotOffset_fits {z : Nat} (hz : z ≤ 4) (d : Bool) : slotOffset z d + 24 ≤ 2 ^ 8 := by
  cases d <;> simp [slotOffset] <;> omega

theorem slotOffset_apart {z z' : Nat} {d d' : Bool} (hz : 1 ≤ z ∧ z ≤ 4) (hz' : 1 ≤ z' ∧ z' ≤ 4)
    (ne : z ≠ z' ∨ d ≠ d') : slotOffset z d + 24 ≤ slotOffset z' d' ∨
      slotOffset z' d' + 24 ≤ slotOffset z d := by
  cases d <;> cases d' <;> simp [slotOffset] at ne ⊢ <;> omega

/-- Two slots share no byte, so each slot is a mailbox of its own. -/
theorem slots_apart {h z h' z' : Nat} {d d' : Bool} (hh : 1 ≤ h) (hz : 1 ≤ z ∧ z ≤ 4)
    (hh' : 1 ≤ h') (hz' : 1 ≤ z' ∧ z' ≤ 4) (ne : h ≠ h' ∨ z ≠ z' ∨ d ≠ d') :
    slotAddr h z d + 24 ≤ slotAddr h' z' d' ∨ slotAddr h' z' d' + 24 ≤ slotAddr h z d := by
  have fits := slotOffset_fits hz.2 d
  have fits' := slotOffset_fits hz'.2 d'
  unfold slotAddr
  rcases Nat.lt_trichotomy h h' with lt | eq | gt
  · omega
  · subst eq
    have apart := slotOffset_apart hz hz' (ne.resolve_left fun n => n rfl)
    omega
  · omega

/-- The next access of a call of MZONE_SEND; `entry` before the first one. The
argument is what `t0` holds. -/
inductive SendPc where
  | entry
  | ldMsg0
  | sdWord0 (t0 : Word)
  | ldMsg1
  | sdWord1 (t0 : Word)
  | sdFlag
  | swMsip
  deriving DecidableEq, Repr

inductive RecvPc where
  | entry
  | ldWord0
  | sdMsg0 (t0 : Word)
  | ldWord1
  | sdMsg1 (t0 : Word)
  | sdZero
  deriving DecidableEq, Repr

inductive Next (P : Type) where
  | goto (pc : P)
  | ret (retVal : Word)

/-- What one access of MZONE_SEND does: where the call goes on, what it stores
in the slot, and whether it raises the receiver's software interrupt. -/
structure SendAccess where
  next : Next SendPc
  store : Option Store
  msip : Bool

def mzoneSend (slot : Slot) (msg : Payload) : SendPc → SendAccess
  | .entry => ⟨if slot.flag = 0 then .goto .ldMsg0 else .ret 0, none, false⟩
  | .ldMsg0 => ⟨.goto (.sdWord0 msg.word0), none, false⟩
  | .sdWord0 t0 => ⟨.goto .ldMsg1, some (.word0 t0), false⟩
  | .ldMsg1 => ⟨.goto (.sdWord1 msg.word1), none, false⟩
  | .sdWord1 t0 => ⟨.goto .sdFlag, some (.word1 t0), false⟩
  | .sdFlag => ⟨.goto .swMsip, some (.flag 1), false⟩
  | .swMsip => ⟨.ret 1, none, true⟩

structure RecvAccess where
  next : Next RecvPc
  store : Option Store
  msg : Payload

def mzoneRecv (slot : Slot) (msg : Payload) : RecvPc → RecvAccess
  | .entry => ⟨if slot.flag = 0 then .ret 0 else .goto .ldWord0, none, msg⟩
  | .ldWord0 => ⟨.goto (.sdMsg0 slot.word0), none, msg⟩
  | .sdMsg0 t0 => ⟨.goto .ldWord1, none, { msg with word0 := t0 }⟩
  | .ldWord1 => ⟨.goto (.sdMsg1 slot.word1), none, msg⟩
  | .sdMsg1 t0 => ⟨.goto .sdZero, none, { msg with word1 := t0 }⟩
  | .sdZero => ⟨.ret 1, some (.flag 0), msg⟩

structure Call where
  stores : List Store
  retVal : Word
  deriving DecidableEq, Repr

/-- One slot between one sender and one receiver, each one call at a time. The
last four fields are the history: the messages of the calls that set the flag,
the messages of the calls that cleared it, and the finished calls. -/
structure Ipc where
  slot : Slot
  sendPc : SendPc
  sendMsg : Payload
  sendStores : List Store
  recvPc : RecvPc
  recvMsg : Payload
  recvStores : List Store
  published : List Payload
  consumed : List Payload
  sends : List Call
  recvs : List Call

def Ipc.initial (words : Payload) : Ipc :=
  ⟨.free words, .entry, ⟨0, 0⟩, [], .entry, ⟨0, 0⟩, [], [], [], [], []⟩

/-- Which party makes its next access. A party between two calls starts one: a
SEND of the given message, a RECV into a buffer with the given contents. -/
inductive IpcTurn where
  | send (msg : Payload)
  | recv (buffer : Payload)

def Ipc.send (s : Ipc) (arg : Payload) : Ipc :=
  let msg := if s.sendPc = .entry then arg else s.sendMsg
  let access := mzoneSend s.slot msg s.sendPc
  let stores := s.sendStores ++ access.store.toList
  let s : Ipc := { s with
    slot := access.store.elim s.slot s.slot.store
    sendMsg := msg
    published := if access.store = some (.flag 1) then s.published ++ [msg] else s.published }
  match access.next with
  | .goto pc => { s with sendPc := pc, sendStores := stores }
  | .ret retVal => { s with sendPc := .entry, sendStores := [], sends := s.sends ++ [⟨stores, retVal⟩] }

def Ipc.recv (s : Ipc) (buffer : Payload) : Ipc :=
  let msg := if s.recvPc = .entry then buffer else s.recvMsg
  let access := mzoneRecv s.slot msg s.recvPc
  let stores := s.recvStores ++ access.store.toList
  let s : Ipc := { s with
    slot := access.store.elim s.slot s.slot.store
    recvMsg := access.msg
    consumed := if access.store = some (.flag 0) then s.consumed ++ [access.msg] else s.consumed }
  match access.next with
  | .goto pc => { s with recvPc := pc, recvStores := stores }
  | .ret retVal => { s with recvPc := .entry, recvStores := [], recvs := s.recvs ++ [⟨stores, retVal⟩] }

def ipc (words : Payload) : Machine Ipc IpcTurn where
  initial := .initial words
  step s
    | .send msg => some (s.send msg)
    | .recv buffer => some (s.recv buffer)

/-- A SEND past its test of the flag owns an empty slot: the words it has stored
so far are those of its message. -/
def SenderOk (slot : Slot) (msg : Payload) : SendPc → Prop
  | .entry | .swMsip => True
  | .ldMsg0 => slot.flag = 0
  | .sdWord0 t0 => slot.flag = 0 ∧ t0 = msg.word0
  | .ldMsg1 => slot.flag = 0 ∧ slot.word0 = msg.word0
  | .sdWord1 t0 => slot.flag = 0 ∧ slot.word0 = msg.word0 ∧ t0 = msg.word1
  | .sdFlag => slot.flag = 0 ∧ slot.payload = msg

def ReceiverOk (slot : Slot) (msg : Payload) : RecvPc → Prop
  | .entry => True
  | .ldWord0 => slot.flag ≠ 0
  | .sdMsg0 t0 => slot.flag ≠ 0 ∧ t0 = slot.word0
  | .ldWord1 => slot.flag ≠ 0 ∧ msg.word0 = slot.word0
  | .sdMsg1 t0 => slot.flag ≠ 0 ∧ msg.word0 = slot.word0 ∧ t0 = slot.word1
  | .sdZero => slot.flag ≠ 0 ∧ msg = slot.payload

def Untouched (calls : List Call) : Prop := ∀ c ∈ calls, c.retVal = 0 → c.stores = []

structure Ipc.Ok (s : Ipc) : Prop where
  sender : SenderOk s.slot s.sendMsg s.sendPc
  receiver : ReceiverOk s.slot s.recvMsg s.recvPc
  sendStart : s.sendPc = .entry → s.sendStores = []
  recvStart : s.recvPc = .entry → s.recvStores = []
  sends : Untouched s.sends
  recvs : Untouched s.recvs

theorem receiver_at_entry {slot : Slot} {msg : Payload} {pc : RecvPc}
    (h : ReceiverOk slot msg pc) (free : slot.flag = 0) : pc = .entry := by
  cases pc with
  | entry => rfl
  | ldWord0 => exact absurd free h
  | sdMsg0 | ldWord1 | sdMsg1 | sdZero => exact absurd free h.1

theorem sender_outside {slot : Slot} {msg : Payload} {pc : SendPc}
    (h : SenderOk slot msg pc) (full : slot.flag ≠ 0) : pc = .entry ∨ pc = .swMsip := by
  cases pc with
  | entry => exact .inl rfl
  | swMsip => exact .inr rfl
  | ldMsg0 => exact absurd h full
  | sdWord0 | ldMsg1 | sdWord1 | sdFlag => exact absurd h.1 full

theorem sender_of_outside {pc : SendPc} (h : pc = .entry ∨ pc = .swMsip) (slot : Slot)
    (msg : Payload) : SenderOk slot msg pc := by
  rcases h with rfl | rfl <;> trivial

theorem untouched_append {calls : List Call} {c : Call} (h : Untouched calls)
    (hc : c.retVal = 0 → c.stores = []) : Untouched (calls ++ [c]) := by
  intro d hd
  rcases List.mem_append.mp hd with hd | hd
  · exact h d hd
  · exact List.mem_singleton.mp hd ▸ hc

theorem send_ok (s : Ipc) (arg : Payload) (h : s.Ok) : (s.send arg).Ok := by
  obtain ⟨sender, receiver, sendStart, recvStart, sends, recvs⟩ := h
  cases hp : s.sendPc with
  | entry =>
    have start := sendStart hp
    by_cases free : s.slot.flag = 0
    · constructor <;> simp_all [Ipc.send, mzoneSend, SenderOk]
    · have back := untouched_append (c := ⟨[], 0⟩) sends fun _ => rfl
      constructor <;> simp_all [Ipc.send, mzoneSend, SenderOk]
  | swMsip =>
    have back := untouched_append (c := ⟨s.sendStores, 1⟩) sends (by simp)
    constructor <;> simp_all [Ipc.send, mzoneSend, SenderOk]
  | ldMsg0 =>
    -- the flag is clear from here to its store, so the receiver is outside its copy
    have idle := receiver_at_entry receiver (by simpa [hp, SenderOk] using sender)
    constructor <;> simp_all [Ipc.send, mzoneSend, SenderOk, ReceiverOk]
  | sdWord0 | ldMsg1 | sdWord1 | sdFlag =>
    have idle := receiver_at_entry receiver (by rw [hp] at sender; exact sender.1)
    constructor <;> simp_all [Ipc.send, mzoneSend, SenderOk, ReceiverOk, Slot.store, Slot.payload]

theorem recv_ok (s : Ipc) (buffer : Payload) (h : s.Ok) : (s.recv buffer).Ok := by
  obtain ⟨sender, receiver, sendStart, recvStart, sends, recvs⟩ := h
  cases hp : s.recvPc with
  | entry =>
    have start := recvStart hp
    by_cases free : s.slot.flag = 0
    · have back := untouched_append (c := ⟨[], 0⟩) recvs fun _ => rfl
      constructor <;> simp_all [Ipc.recv, mzoneRecv, ReceiverOk]
    · constructor <;> simp_all [Ipc.recv, mzoneRecv, ReceiverOk]
  | sdZero =>
    have back := untouched_append (c := ⟨s.recvStores ++ [.flag 0], 1⟩) recvs (by simp)
    have idle := sender_outside sender (by rw [hp] at receiver; exact receiver.1)
    have sender := sender_of_outside idle { s.slot with flag := 0 } s.sendMsg
    constructor <;> simp_all [Ipc.recv, mzoneRecv, ReceiverOk, Slot.store]
  | ldWord0 | sdMsg0 | ldWord1 | sdMsg1 =>
    constructor <;> simp_all [Ipc.recv, mzoneRecv, ReceiverOk, Slot.payload]

/-- The slot as a channel: full exactly while the flag is set. -/
def Ipc.channel (s : Ipc) : Channel Payload :=
  ⟨if s.slot.flag = 0 then none else some s.slot.payload, s.published, s.consumed⟩

def Ipc.effect (s : Ipc) : IpcTurn → Option (ChannelOp Payload)
  | .send _ => if s.sendPc = .sdFlag then some (.put s.sendMsg) else none
  | .recv _ => if s.recvPc = .sdZero then some .take else none

theorem channel_send_eq (s : Ipc) (arg : Payload) :
    let msg := if s.sendPc = .entry then arg else s.sendMsg
    let store := (mzoneSend s.slot msg s.sendPc).store
    (s.send arg).channel = Ipc.channel { s with
      slot := store.elim s.slot s.slot.store
      published := if store = some (.flag 1) then s.published ++ [msg] else s.published } := by
  simp only [Ipc.send]
  split <;> rfl

theorem channel_recv_eq (s : Ipc) (buffer : Payload) :
    let msg := if s.recvPc = .entry then buffer else s.recvMsg
    let access := mzoneRecv s.slot msg s.recvPc
    (s.recv buffer).channel = Ipc.channel { s with
      slot := access.store.elim s.slot s.slot.store
      consumed := if access.store = some (.flag 0) then s.consumed ++ [access.msg]
        else s.consumed } := by
  simp only [Ipc.recv]
  split <;> rfl

theorem channel_send (s : Ipc) (arg : Payload) (h : s.Ok) (quiet : s.sendPc ≠ .sdFlag) :
    (s.send arg).channel = s.channel := by
  have sender := h.sender
  rw [channel_send_eq]
  cases hp : s.sendPc with
  | sdFlag => exact absurd hp quiet
  | entry | ldMsg0 | ldMsg1 | swMsip => rfl
  | sdWord0 | sdWord1 =>
    rw [hp] at sender
    have free := sender.1
    simp_all [Ipc.channel, mzoneSend, Slot.store]

theorem channel_publish (s : Ipc) (arg : Payload) (h : s.Ok) (hp : s.sendPc = .sdFlag) :
    (Channel.machine Payload).step s.channel (.put s.sendMsg) = some (s.send arg).channel := by
  have sender := h.sender
  rw [hp] at sender
  obtain ⟨free, words⟩ := sender
  rw [channel_send_eq]
  simp_all [Channel.machine, Ipc.channel, mzoneSend, Slot.store, Slot.payload]

theorem channel_recv (s : Ipc) (buffer : Payload) (quiet : s.recvPc ≠ .sdZero) :
    (s.recv buffer).channel = s.channel := by
  rw [channel_recv_eq]
  cases hp : s.recvPc with
  | sdZero => exact absurd hp quiet
  | entry | ldWord0 | sdMsg0 | ldWord1 | sdMsg1 => rfl

theorem channel_consume (s : Ipc) (buffer : Payload) (h : s.Ok) (hp : s.recvPc = .sdZero) :
    (Channel.machine Payload).step s.channel .take = some (s.recv buffer).channel := by
  have receiver := h.receiver
  rw [hp] at receiver
  obtain ⟨full, words⟩ := receiver
  rw [channel_recv_eq]
  simp_all [Channel.machine, Ipc.channel, mzoneRecv, Slot.store]

theorem step_ok {words : Payload} (s : Ipc) (a : IpcTurn) (t : Ipc) (h : s.Ok)
    (hs : (ipc words).step s a = some t) : t.Ok := by
  cases a with
  | send msg => exact Option.some.inj hs ▸ send_ok s msg h
  | recv buffer => exact Option.some.inj hs ▸ recv_ok s buffer h

theorem initial_ok (words : Payload) : (Ipc.initial words).Ok := by
  constructor <;> simp [Ipc.initial, SenderOk, ReceiverOk, Untouched]

/-- Every interleaving of the two macros is a run of the one-message channel. -/
theorem ipc_refines_channel {words : Payload} {turns : List IpcTurn} {s : Ipc}
    (hr : (ipc words).run (ipc words).initial turns = some s) :
    ∃ ops, (Channel.machine Payload).run (Channel.machine Payload).initial ops
      = some s.channel := by
  refine simulation (m := ipc words) (n := Channel.machine Payload) Ipc.channel Ipc.effect step_ok
    ?_ ?_ (initial_ok words) hr
  · intro s a t h hs quiet
    cases a with
    | send msg =>
      exact Option.some.inj hs ▸ channel_send s msg h fun hp => by simp [Ipc.effect, hp] at quiet
    | recv buffer =>
      exact Option.some.inj hs ▸ channel_recv s buffer fun hp => by simp [Ipc.effect, hp] at quiet
  · intro s a t op h hs he
    cases a with
    | send msg =>
      by_cases hp : s.sendPc = .sdFlag
      · simp only [Ipc.effect, hp, if_true, Option.some.injEq] at he
        exact he ▸ Option.some.inj hs ▸ channel_publish s msg h hp
      · simp [Ipc.effect, hp] at he
    | recv buffer =>
      by_cases hp : s.recvPc = .sdZero
      · simp only [Ipc.effect, hp, if_true, Option.some.injEq] at he
        exact he ▸ Option.some.inj hs ▸ channel_consume s buffer h hp
      · simp [Ipc.effect, hp] at he

/-- Messages arrive once, whole and in order over every interleaving, and a call
that returns 0 has left the slot alone. -/
theorem ipc_exactly_once (words : Payload) (turns : List IpcTurn) (s : Ipc)
    (hr : (ipc words).run (ipc words).initial turns = some s) :
    s.consumed <+: s.published ∧ s.published.length ≤ s.consumed.length + 1 ∧
      (∀ m ∈ s.consumed, m ∈ s.published) ∧
      (∀ c ∈ s.sends, c.retVal = 0 → c.stores = []) ∧
      (∀ c ∈ s.recvs, c.retVal = 0 → c.stores = []) := by
  obtain ⟨ops, hc⟩ := ipc_refines_channel hr
  have once := (Channel.run_balanced hc).exactly_once
  have ok : s.Ok := Machine.invariant step_ok (initial_ok words) hr
  exact ⟨once.1, once.2, fun m hm => once.1.subset hm, ok.sends, ok.recvs⟩

/-- A SEND, a second one that finds the slot full, the RECV of the first. -/
def oneMessage : List IpcTurn :=
  List.replicate 8 (.send ⟨1, 2⟩) ++ List.replicate 6 (.recv ⟨0, 0⟩)

theorem ipc_exactly_once_oneMessage :
    ∃ s, (ipc ⟨7, 7⟩).run (ipc ⟨7, 7⟩).initial oneMessage = some s ∧ s.consumed = [⟨1, 2⟩] ∧
      s.sends = [⟨[.word0 1, .word1 2, .flag 1], 1⟩, ⟨[], 0⟩] ∧ s.consumed <+: s.published := by
  refine ⟨_, rfl, rfl, rfl, ?_⟩
  exact (ipc_exactly_once ⟨7, 7⟩ oneMessage _ rfl).1

end Mailbox

end MultiZone
