import MultiZone.Notification
import Mathlib.Algebra.Ring.Nat

/-! The recv command of harts 1 to 3 runs MZONE_RECV in the main loop, where the
software interrupt may come between any two of its accesses and run MZONE_RECV
on the same slot. Hart 0 sends meanwhile. -/
namespace MultiZone.RecvCommand
open Transition Mailbox Notification

local instance fourZones : NeZero 4 := Nat.instNeZeroSucc

/-- The hart with the recv command's call; `entry` when none is in progress. The
last two fields are the history: for each zone the messages published in its
slot, and those handed to the command or to the inbox. -/
structure State where
  hart : Hart
  cmdPc : RecvPc
  cmdZone : Fin 4
  cmdMsg : Payload
  published : Fin 4 → List Payload
  delivered : Fin 4 → List Payload

def State.initial (words : Fin 4 → Payload) : State :=
  ⟨.initial words, .entry, 0, ⟨0, 0⟩, fun _ => [], fun _ => []⟩

/-- Who makes the next access: hart 0, the interrupt handler, or the command. A
command that is not in progress starts a RECV of the given zone. -/
inductive StateTurn where
  | send (zone : Fin 4) (msg : Payload)
  | handler (buffer : Payload)
  | command (zone : Fin 4) (buffer : Payload)

def record (history : Fin 4 → List Payload) (zone : Fin 4) (msg : Payload) :
    Fin 4 → List Payload :=
  Function.update history zone (history zone ++ [msg])

def State.send (s : State) (zone : Fin 4) (msg : Payload) : State :=
  { s with
    hart := s.hart.send zone msg
    published :=
      if s.hart.sendPc = .sdFlag then record s.published s.hart.sendZone s.hart.sendMsg
      else s.published }

def State.handle (s : State) (buffer : Payload) : Option State :=
  (s.hart.handle buffer).map fun hart =>
    { s with
      hart := hart
      delivered :=
        match s.hart.handler with
        | .memcpy zone => record s.delivered zone s.hart.msg
        | _ => s.delivered }

/-- The main loop does not run while the handler does. -/
def State.command (s : State) (zone : Fin 4) (buffer : Payload) : Option State :=
  if s.hart.handler = .outside then
    let zone := if s.cmdPc = .entry then zone else s.cmdZone
    let msg := if s.cmdPc = .entry then buffer else s.cmdMsg
    let access := mzoneRecv (s.hart.slots zone) msg s.cmdPc
    some { s with
      hart := { s.hart with slots := storeAt s.hart.slots zone access.store }
      cmdPc := match access.next with | .goto pc => pc | .ret _ => .entry
      cmdZone := zone
      cmdMsg := access.msg
      delivered :=
        match access.next with
        | .goto _ => s.delivered
        | .ret retVal => if retVal = 0 then s.delivered else record s.delivered zone access.msg }
  else none

def recvHart (words : Fin 4 → Payload) : Machine State StateTurn where
  initial := .initial words
  step s
    | .send zone msg => some (s.send zone msg)
    | .handler buffer => s.handle buffer
    | .command zone buffer => s.command zone buffer

def held (slot : Slot) : List Payload := if slot.flag = 0 then [] else [slot.payload]

def inHand (h : Hart) (zone : Fin 4) : List Payload :=
  if h.handler = .memcpy zone then [h.msg] else []

/-- Every published message has been delivered once, or is on its way. -/
def Delivered (s : State) : Prop :=
  ∀ z, s.published z = s.delivered z ++ (inHand s.hart z ++ held (s.hart.slots z))

/-- When the recv command clears the flag the slot still is as it has read it:
the flag is set and the words are the ones copied. -/
def Undisturbed (s : State) : StateTurn → Prop
  | .send _ _ | .handler _ => True
  | .command _ _ => s.cmdPc = .sdZero →
    (s.hart.slots s.cmdZone).flag ≠ 0 ∧ s.cmdMsg = (s.hart.slots s.cmdZone).payload

/-- What the sender and the handler rely on; the command has no such assurance. -/
structure Ok (s : State) : Prop where
  sender : SenderOk (s.hart.slots s.hart.sendZone) s.hart.sendMsg s.hart.sendPc
  handler : ∀ zone pc, s.hart.handler = .recv zone pc →
    ReceiverOk (s.hart.slots zone) s.hart.msg pc

def resume : Next SendPc → SendPc
  | .goto pc => pc
  | .ret _ => .entry

section Access

variable {slot : Slot} {msg : Payload}

/-- A SEND fills the slot when it sets the flag and not before. -/
theorem send_held {pc : SendPc} (h : SenderOk slot msg pc) :
    held ((mzoneSend slot msg pc).store.elim slot slot.store) =
      held slot ++ if pc = .sdFlag then [msg] else [] := by
  cases pc with
  | entry | ldMsg0 | ldMsg1 | swMsip => simp [mzoneSend]
  | sdWord0 t0 | sdWord1 t0 =>
    have free := h.1
    simp [mzoneSend, held, Slot.store, free]
  | sdFlag =>
    obtain ⟨free, words⟩ := h
    simp [mzoneSend, held, Slot.store, free, ← words, Slot.payload]

theorem send_next {pc : SendPc} (h : SenderOk slot msg pc) :
    SenderOk ((mzoneSend slot msg pc).store.elim slot slot.store) msg
      (resume (mzoneSend slot msg pc).next) := by
  cases pc with
  | entry => by_cases free : slot.flag = 0 <;> simp_all [mzoneSend, SenderOk, resume]
  | swMsip => trivial
  | ldMsg0 | sdWord0 t0 | ldMsg1 | sdWord1 t0 | sdFlag =>
    simp_all [mzoneSend, SenderOk, Slot.store, Slot.payload, resume]

theorem send_store {pc : SendPc} (h : SenderOk slot msg pc) (full : slot.flag ≠ 0) :
    (mzoneSend slot msg pc).store = none := by
  rcases sender_outside h full with rfl | rfl <;> rfl

end Access

theorem storeAt_eq (slots : Fin 4 → Slot) (zone z : Fin 4) (st : Option Store) :
    storeAt slots zone st z =
      if z = zone then st.elim (slots zone) (slots zone).store else slots z := by
  rcases Decidable.em (z = zone) with rfl | ne
  · cases st with
    | none => simp [storeAt]
    | some st => simp [storeAt]
  · cases st with
    | none => simp [storeAt, ne]
    | some st => simp [storeAt, ne]

theorem receiver_sent {slots : Fin 4 → Slot} {z₀ z : Fin 4} {m₀ msg : Payload} {sendPc : SendPc}
    {pc : RecvPc} (sender : SenderOk (slots z₀) m₀ sendPc) (before : ReceiverOk (slots z) msg pc) :
    ReceiverOk (storeAt slots z₀ (mzoneSend (slots z₀) m₀ sendPc).store z) msg pc := by
  rw [storeAt_eq]
  split
  · rename_i same
    rw [same] at before
    rcases Decidable.em ((slots z₀).flag = 0) with free | full
    · rw [receiver_at_entry before free]
      trivial
    · rw [send_store sender full]
      exact before
  · exact before

theorem record_self (history : Fin 4 → List Payload) (zone : Fin 4) (msg : Payload) :
    record history zone msg zone = history zone ++ [msg] := Function.update_self ..

theorem record_of_ne (history : Fin 4 → List Payload) {z zone : Fin 4} (ne : z ≠ zone)
    (msg : Payload) : record history zone msg z = history z := Function.update_of_ne ne ..

theorem send_cases (s : State) (zone : Fin 4) (msg : Payload) (ok : Ok s) : ∃ z₀ m₀,
    SenderOk (s.hart.slots z₀) m₀ s.hart.sendPc ∧ s.send zone msg = { s with
      hart := { s.hart with
        slots := storeAt s.hart.slots z₀ (mzoneSend (s.hart.slots z₀) m₀ s.hart.sendPc).store
        msip := s.hart.msip || (mzoneSend (s.hart.slots z₀) m₀ s.hart.sendPc).msip
        sendPc := resume (mzoneSend (s.hart.slots z₀) m₀ s.hart.sendPc).next
        sendZone := z₀
        sendMsg := m₀ }
      published := if s.hart.sendPc = .sdFlag then record s.published z₀ m₀ else s.published } := by
  by_cases hp : s.hart.sendPc = .entry
  · refine ⟨zone, msg, by rw [hp]; trivial, ?_⟩
    simp only [State.send, Hart.send, hp, if_true]
    rfl
  · refine ⟨s.hart.sendZone, s.hart.sendMsg, ok.sender, ?_⟩
    simp only [State.send, Hart.send, hp, if_false]
    rfl

theorem send_step {s : State} (zone : Fin 4) (msg : Payload) (h : Delivered s) (ok : Ok s) :
    Delivered (s.send zone msg) ∧ Ok (s.send zone msg) := by
  obtain ⟨z₀, m₀, sender, eq⟩ := send_cases s zone msg ok
  rw [eq]
  refine ⟨fun z => ?_, ?_, fun z pc hz => ?_⟩
  · have balance := h z
    have filled := send_held sender
    simp only [inHand] at balance ⊢
    rw [storeAt_eq]
    by_cases hz : z = z₀
    · subst hz
      rw [if_pos rfl, filled]
      by_cases hf : s.hart.sendPc = .sdFlag
      · simp [hf, record_self, balance]
      · simp [hf, balance]
    · rw [if_neg hz]
      by_cases hf : s.hart.sendPc = .sdFlag
      · simp [hf, record_of_ne _ hz, balance]
      · simp [hf, balance]
  · have next := send_next sender
    dsimp only
    rw [storeAt_eq, if_pos rfl]
    exact next
  · exact receiver_sent sender (ok.handler z pc hz)

theorem recv_cases {slot : Slot} {msg : Payload} {pc : RecvPc} (h : ReceiverOk slot msg pc) :
    (pc = .sdZero ∧ mzoneRecv slot msg pc = ⟨.ret 1, some (.flag 0), msg⟩) ∨
    mzoneRecv slot msg pc = ⟨.ret 0, none, msg⟩ ∨
    ∃ pc' msg', mzoneRecv slot msg pc = ⟨.goto pc', none, msg'⟩ ∧ ReceiverOk slot msg' pc' := by
  cases pc with
  | sdZero => exact .inl ⟨rfl, rfl⟩
  | entry =>
    by_cases free : slot.flag = 0
    · exact .inr (.inl (by simp [mzoneRecv, free]))
    · exact .inr (.inr ⟨.ldWord0, msg, by simp only [mzoneRecv, free, if_false], free⟩)
  | ldWord0 => exact .inr (.inr ⟨_, _, rfl, h, rfl⟩)
  | sdMsg0 t0 => exact .inr (.inr ⟨_, _, rfl, h.1, h.2⟩)
  | ldWord1 => exact .inr (.inr ⟨_, _, rfl, h.1, h.2, rfl⟩)
  | sdMsg1 t0 =>
    obtain ⟨full, word0, word1⟩ := h
    refine .inr (.inr ⟨_, _, rfl, full, ?_⟩)
    simp [Slot.payload, word0, word1]

theorem nextZone_cases (zone : Fin 4) :
    (∃ z, nextZone zone = .recv z .entry) ∨ nextZone zone = .clearSoftInterrupt := by
  unfold nextZone
  split
  · exact .inl ⟨_, rfl⟩
  · exact .inr rfl

theorem nextZone_ne_memcpy (zone z : Fin 4) : nextZone zone ≠ .memcpy z := by
  intro h
  rcases nextZone_cases zone with ⟨y, eq⟩ | eq
  · cases eq.symm.trans h
  · cases eq.symm.trans h

theorem nextZone_ok {slots : Fin 4 → Slot} {msg : Payload} {zone z : Fin 4} {pc : RecvPc}
    (h : nextZone zone = .recv z pc) : ReceiverOk (slots z) msg pc := by
  rcases nextZone_cases zone with ⟨y, eq⟩ | eq
  · cases eq.symm.trans h
    trivial
  · cases eq.symm.trans h

/-- A sender that finds the flag set does not rely on the slot it is cleared in. -/
theorem sender_cleared {s : State} (ok : Ok s) {zone : Fin 4}
    (full : (s.hart.slots zone).flag ≠ 0) :
    SenderOk (storeAt s.hart.slots zone (some (.flag 0)) s.hart.sendZone) s.hart.sendMsg
      s.hart.sendPc := by
  rw [storeAt_eq]
  by_cases hz : s.hart.sendZone = zone
  · rw [if_pos hz]
    exact sender_of_outside (sender_outside ok.sender (hz ▸ full)) _ _
  · rw [if_neg hz]
    exact ok.sender

theorem handle_recv {s : State} {buffer : Payload} (h : Delivered s) (ok : Ok s) {zone : Fin 4}
    {pc : RecvPc} {hart : Hart} (hp : s.hart.handler = .recv zone pc)
    (hh : s.hart.handle buffer = some hart) :
    Delivered { s with hart := hart } ∧ Ok { s with hart := hart } := by
  simp only [Hart.handle, hp, Option.some.injEq] at hh
  have receiver : ReceiverOk (s.hart.slots zone) (if pc = .entry then buffer else s.hart.msg) pc := by
    by_cases entry : pc = .entry
    · rw [entry]
      trivial
    · rw [if_neg entry]
      exact ok.handler zone pc hp
  rcases recv_cases receiver with ⟨rfl, access⟩ | access | ⟨pc', msg', access, next⟩
  · rw [access] at hh
    subst hh
    obtain ⟨full, words⟩ := ok.handler zone _ hp
    refine ⟨fun z => ?_, sender_cleared ok full, fun z pc hz => by cases hz⟩
    have balance := h z
    by_cases hz : z = zone
    · subst hz
      simp_all [inHand, held, storeAt, Slot.store]
    · have ne : zone ≠ z := fun eq => hz eq.symm
      simpa [inHand, hp, storeAt, hz, ne] using balance
  · rw [access] at hh
    subst hh
    refine ⟨fun z => ?_, ok.sender, fun z pc hz => nextZone_ok hz⟩
    have balance := h z
    simpa [inHand, hp, storeAt, nextZone_ne_memcpy] using balance
  · rw [access] at hh
    subst hh
    refine ⟨fun z => ?_, ok.sender, fun z pc hz => ?_⟩
    · have balance := h z
      simpa [inHand, hp, storeAt] using balance
    · cases hz
      exact next

theorem handle_step {s t : State} {buffer : Payload} (h : Delivered s) (ok : Ok s)
    (hs : s.handle buffer = some t) : Delivered t ∧ Ok t := by
  obtain ⟨hart, hh, rfl⟩ := Option.map_eq_some_iff.mp hs
  cases hp : s.hart.handler with
  | outside =>
    simp only [Hart.handle, hp] at hh
    split at hh
    · cases Option.some.inj hh
      refine ⟨fun z => ?_, ok.sender, fun z pc hz => ?_⟩
      · have balance := h z
        simpa [inHand, hp] using balance
      · cases hz
        trivial
    · cases hh
  | recv zone pc => exact handle_recv h ok hp hh
  | memcpy zone =>
    simp only [Hart.handle, hp, Option.some.injEq] at hh
    subst hh
    refine ⟨fun z => ?_, ok.sender, fun z pc hz => nextZone_ok hz⟩
    have balance := h z
    by_cases hz : z = zone
    · subst hz
      simpa [inHand, hp, nextZone_ne_memcpy, record_self] using balance
    · have ne : zone ≠ z := fun eq => hz eq.symm
      simpa [inHand, hp, nextZone_ne_memcpy, record_of_ne _ hz, ne] using balance
  | clearSoftInterrupt =>
    simp only [Hart.handle, hp, Option.some.injEq] at hh
    subst hh
    refine ⟨fun z => ?_, ok.sender, fun z pc hz => by cases hz⟩
    have balance := h z
    simpa [inHand, hp] using balance

theorem command_access (slot : Slot) (msg : Payload) {pc : RecvPc} (ne : pc ≠ .sdZero) :
    (mzoneRecv slot msg pc).store = none ∧
      ∀ retVal, (mzoneRecv slot msg pc).next = .ret retVal → retVal = 0 := by
  cases pc with
  | sdZero => exact absurd rfl ne
  | entry =>
    refine ⟨rfl, fun retVal hr => ?_⟩
    by_cases free : slot.flag = 0
    · simp only [mzoneRecv, free, if_true, Next.ret.injEq] at hr
      exact hr.symm
    · simp only [mzoneRecv, free, if_false] at hr
      cases hr
  | ldWord0 | sdMsg0 | ldWord1 | sdMsg1 => exact ⟨rfl, fun retVal hr => by cases hr⟩

theorem command_quiet {s t : State} {zone : Fin 4} {buffer : Payload}
    (hs : s.command zone buffer = some t) (quiet : s.cmdPc ≠ .sdZero) :
    t.hart = s.hart ∧ t.published = s.published ∧ t.delivered = s.delivered := by
  unfold State.command at hs
  split at hs
  case isFalse => cases hs
  cases Option.some.inj hs
  obtain ⟨store, finished⟩ := command_access
    (s.hart.slots (if s.cmdPc = .entry then zone else s.cmdZone))
    (if s.cmdPc = .entry then buffer else s.cmdMsg) quiet
  refine ⟨?_, rfl, ?_⟩
  · simp only [store, storeAt]
  · dsimp only
    split
    · rfl
    · rename_i retVal hr
      rw [if_pos (finished retVal hr)]

theorem command_last {s t : State} {zone : Fin 4} {buffer : Payload}
    (hs : s.command zone buffer = some t) (last : s.cmdPc = .sdZero) :
    s.hart.handler = .outside ∧ t.published = s.published ∧
      t.delivered = record s.delivered s.cmdZone s.cmdMsg ∧
      t.hart = { s.hart with slots := storeAt s.hart.slots s.cmdZone (some (.flag 0)) } := by
  unfold State.command at hs
  split at hs
  case isFalse => cases hs
  rename_i outside
  simp only [last, mzoneRecv, Option.some.injEq] at hs
  subst hs
  exact ⟨outside, rfl, rfl, rfl⟩

theorem held_eq_singleton {slot : Slot} {msg : Payload} :
    held slot = [msg] ↔ slot.flag ≠ 0 ∧ msg = slot.payload := by
  unfold held
  split
  · rename_i free
    exact iff_of_false nofun fun h => h.1 free
  · rename_i full
    rw [List.cons.injEq]
    exact ⟨fun h => ⟨full, h.1.symm⟩, fun h => ⟨h.2.symm, rfl⟩⟩

/-- Only the access that clears the flag can go wrong: it does unless the slot
holds just the message that the command has copied. -/
theorem command_delivered {s t : State} {zone : Fin 4} {buffer : Payload} (h : Delivered s)
    (hs : s.command zone buffer = some t) :
    Delivered t ↔ Undisturbed s (.command zone buffer) := by
  by_cases last : s.cmdPc = .sdZero
  · obtain ⟨outside, published, delivered, hart⟩ := command_last hs last
    have no_hand : ∀ z, inHand s.hart z = [] := fun z => by simp [inHand, outside]
    have cleared : held (storeAt s.hart.slots s.cmdZone (some (.flag 0)) s.cmdZone) = [] := by
      simp [storeAt_eq, Slot.store, held]
    have here := h s.cmdZone
    rw [no_hand, List.nil_append] at here
    have decides : t.published s.cmdZone =
        t.delivered s.cmdZone ++ (inHand t.hart s.cmdZone ++ held (t.hart.slots s.cmdZone)) ↔
          held (s.hart.slots s.cmdZone) = [s.cmdMsg] := by
      rw [published, delivered, hart, record_self, here]
      have no_hand := no_hand s.cmdZone
      simp only [inHand] at no_hand ⊢
      rw [no_hand, cleared, List.append_nil, List.append_nil, List.append_right_inj]
    have others : ∀ z, z ≠ s.cmdZone → t.published z =
        t.delivered z ++ (inHand t.hart z ++ held (t.hart.slots z)) := by
      intro z hz
      have balance := h z
      rw [published, delivered, hart, record_of_ne _ hz]
      simp only [inHand] at balance ⊢
      rw [storeAt_eq, if_neg hz]
      exact balance
    rw [held_eq_singleton] at decides
    constructor
    · intro after _
      exact decides.mp (after s.cmdZone)
    · intro undisturbed z
      by_cases hz : z = s.cmdZone
      · exact hz ▸ decides.mpr (undisturbed last)
      · exact others z hz
  · obtain ⟨hart, published, delivered⟩ := command_quiet hs last
    refine iff_of_true (fun z => ?_) fun hp => absurd hp last
    rw [hart, published, delivered]
    exact h z

theorem command_ok {s t : State} {zone : Fin 4} {buffer : Payload} (ok : Ok s)
    (undisturbed : Undisturbed s (.command zone buffer))
    (hs : s.command zone buffer = some t) : Ok t := by
  by_cases last : s.cmdPc = .sdZero
  · obtain ⟨outside, -, -, hart⟩ := command_last hs last
    obtain ⟨full, -⟩ := undisturbed last
    refine ⟨?_, fun z pc hz => ?_⟩
    · rw [hart]
      exact sender_cleared ok full
    · rw [hart] at hz
      cases outside.symm.trans hz
  · obtain ⟨hart, -, -⟩ := command_quiet hs last
    refine ⟨?_, ?_⟩
    · rw [hart]
      exact ok.sender
    · rw [hart]
      exact ok.handler

/-- Every message published in the slots is delivered exactly once, to the
command or to the inbox, as long as the command only clears the flag of a slot
that it has found undisturbed; and the first time it does not, one is not. -/
theorem delivered_iff_undisturbed (words : Fin 4 → Payload) (turns : List StateTurn) :
    (recvHart words).Always Delivered (recvHart words).initial turns ↔
      (recvHart words).Obeys Undisturbed (recvHart words).initial turns := by
  refine Machine.always_iff_obeys (J := Ok) ?_ ?_ turns ?_ ?_
  · intro s a t h ok undisturbed hs
    cases a with
    | send zone msg => exact Option.some.inj hs ▸ (send_step zone msg h ok).2
    | handler buffer => exact (handle_step h ok hs).2
    | command zone buffer => exact command_ok ok undisturbed hs
  · intro s a t h ok hs
    cases a with
    | send zone msg => exact iff_of_true (Option.some.inj hs ▸ (send_step zone msg h ok).1) trivial
    | handler buffer => exact iff_of_true (handle_step h ok hs).1 trivial
    | command zone buffer => exact command_delivered h hs
  · intro z
    rfl
  · exact ⟨trivial, nofun⟩

/-- The command tests the flag when the message is published; the interrupt that
announces it comes next and takes the message; the command copies it once more. -/
def announcedLate : List StateTurn :=
  List.replicate 6 (.send 0 ⟨1, 2⟩) ++ [.command 0 ⟨0, 0⟩, .send 0 ⟨1, 2⟩] ++
    List.replicate 12 (.handler ⟨0, 0⟩) ++ List.replicate 5 (.command 0 ⟨0, 0⟩)

theorem announcedLate_duplicates :
    ∃ s, (recvHart fun _ => ⟨0, 0⟩).run (recvHart fun _ => ⟨0, 0⟩).initial announcedLate = some s ∧
      s.published 0 = [⟨1, 2⟩] ∧ s.delivered 0 = [⟨1, 2⟩, ⟨1, 2⟩] ∧ ¬ Delivered s := by
  refine ⟨_, rfl, rfl, rfl, fun h => ?_⟩
  have balance := congrArg List.length (h 0)
  exact absurd balance (by decide)

/-- The interrupt is not taken while the command's call is in progress. -/
def Unpreempted (s : State) : StateTurn → Prop
  | .handler _ => s.cmdPc = .entry
  | .send _ _ | .command _ _ => True

def Alone (s : State) : Prop :=
  Ok s ∧ ReceiverOk (s.hart.slots s.cmdZone) s.cmdMsg s.cmdPc

theorem alone_undisturbed {s : State} (h : Alone s) (a : StateTurn) : Undisturbed s a := by
  cases a with
  | send zone msg | handler buffer => trivial
  | command zone buffer =>
    intro last
    have receiver := h.2
    rw [last] at receiver
    exact receiver

theorem alone_send {s : State} (zone : Fin 4) (msg : Payload) (h : Alone s) (ok : Ok (s.send zone msg)) :
    Alone (s.send zone msg) := by
  obtain ⟨z₀, m₀, sender, eq⟩ := send_cases s zone msg h.1
  refine ⟨ok, ?_⟩
  rw [eq]
  exact receiver_sent sender h.2

theorem alone_command {s t : State} {zone : Fin 4} {buffer : Payload} (h : Alone s) (ok : Ok t)
    (hs : s.command zone buffer = some t) : Alone t := by
  refine ⟨ok, ?_⟩
  unfold State.command at hs
  split at hs
  case isFalse => cases hs
  have receiver : ReceiverOk (s.hart.slots (if s.cmdPc = .entry then zone else s.cmdZone))
      (if s.cmdPc = .entry then buffer else s.cmdMsg) s.cmdPc := by
    by_cases entry : s.cmdPc = .entry
    · rw [entry]
      trivial
    · rw [if_neg entry, if_neg entry]
      exact h.2
  simp only [Option.some.injEq] at hs
  rcases recv_cases receiver with ⟨-, access⟩ | access | ⟨pc', msg', access, next⟩
  · rw [access] at hs
    subst hs
    trivial
  · rw [access] at hs
    subst hs
    trivial
  · rw [access] at hs
    subst hs
    exact next

theorem undisturbed_of_unpreempted (words : Fin 4 → Payload) (turns : List StateTurn)
    (alone : (recvHart words).Obeys Unpreempted (recvHart words).initial turns) :
    (recvHart words).Obeys Undisturbed (recvHart words).initial turns := by
  refine Machine.obeys_mono (I := fun s => Delivered s ∧ Alone s) ?_
    (fun s a t h _ _ => alone_undisturbed h.2 a) ⟨fun z => rfl, ⟨trivial, nofun⟩, trivial⟩ alone
  intro s a t ⟨delivered, alone⟩ unpreempted hs
  cases a with
  | send zone msg =>
    cases Option.some.inj hs
    have step := send_step zone msg delivered alone.1
    exact ⟨step.1, alone_send zone msg alone step.2⟩
  | handler buffer =>
    have step := handle_step delivered alone.1 hs
    obtain ⟨hart, -, rfl⟩ := Option.map_eq_some_iff.mp hs
    have entry : s.cmdPc = .entry := unpreempted
    refine ⟨step.1, step.2, ?_⟩
    rw [entry]
    trivial
  | command zone buffer =>
    have undisturbed := alone_undisturbed alone (.command zone buffer)
    exact ⟨(command_delivered delivered hs).mpr undisturbed,
      alone_command alone (command_ok alone.1 undisturbed hs) hs⟩

end MultiZone.RecvCommand
