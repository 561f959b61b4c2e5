import MultiZone.Reassembly
import MultiZone.Uart
import Mathlib.Algebra.Ring.Nat

/-! The main loop of zone 2, which reads a line, handles the messages and then
sleeps or yields, with the UART and the message interrupt in between. -/
namespace MultiZone.Zone2
open Transition

local instance eightZones : NeZero 8 := Nat.instNeZeroSucc

inductive Pc where
  | readline (pc : Uart.Pc)
  | cmdHandler
  | maskMessages
  | msgHandler
  | unmaskMessages
  | bufferEmpty
  | maskInbox
  | inboxEmpty (zone : Fin 8)
  | unmaskInbox (empty : Bool)
  | wfi
  | yield
  deriving DecidableEq

structure Mem where
  uart : Uart.Mem
  zones : Reassembly.Zones

def Mem.initial : Mem := ⟨.initial, ⟨fun _ => .empty, fun _ => []⟩⟩

/-- `inbox[zone].len==0 && ...` -/
def nextInbox (zone : Fin 8) : Pc :=
  if h : zone.val + 1 < 8 then .inboxEmpty ⟨zone.val + 1, h⟩ else .unmaskInbox true

/-- One statement of the main loop. The input says whether the line cmd_handler
is given restarts the zone. -/
def main (restart : Bool) (pc : Pc) (m : Mem) : Option (Point Pc Mem) :=
  match pc with
  | .readline pc => (Uart.readline pc m.uart).map fun r =>
    ⟨match r.1 with
      | .goto pc => .readline pc
      | .ret eol => if eol then .cmdHandler else .maskMessages, { m with uart := r.2 }⟩
  | .cmdHandler => some (if restart then ⟨.readline .test, .initial⟩ else ⟨.maskMessages, m⟩)
  | .maskMessages => some ⟨.msgHandler, m⟩
  | .msgHandler =>
    -- UART interrupts that fall inside it neither see nor change what it does
    let zones := Reassembly.msgHandler m.zones
    some (if ∃ z, Reassembly.Restarts m.zones.inbox z then ⟨.readline .test, ⟨.initial, zones⟩⟩
      else ⟨.unmaskMessages, { m with zones := zones }⟩)
  | .unmaskMessages => some ⟨.bufferEmpty, m⟩
  | .bufferEmpty => some ⟨if m.uart.buffer.isEmpty then .maskInbox else .yield, m⟩
  | .maskInbox => some ⟨.inboxEmpty 0, m⟩
  | .inboxEmpty z =>
    some ⟨if (m.zones.inbox z).len = 0 then nextInbox z else .unmaskInbox false, m⟩
  | .unmaskInbox empty => some ⟨if empty then .wfi else .yield, m⟩
  | .wfi | .yield => some ⟨.readline .test, m⟩

inductive Irq where
  | uartIsr (temp : Uart.Temp)
  | msiIsr (recv : Fin 8 → Option Message)

def Pc.masked : Pc → Bool
  | .readline pc => pc.masked
  | _ => false

/-- The message interrupt is masked in mie. -/
def Pc.messagesMasked : Pc → Bool
  | .msgHandler | .unmaskMessages | .inboxEmpty _ | .unmaskInbox _ => true
  | _ => false

def interrupt (irq : Irq) (pc : Pc) (m : Mem) : Option Mem :=
  if pc.masked then none
  else match irq with
  | .uartIsr temp => (m.uart.receive temp).map fun uart => { m with uart := uart }
  | .msiIsr recv =>
    if pc.messagesMasked then none else some { m with zones := m.zones.receive recv }

def program : Program Pc Mem Bool Irq where
  entry := .readline .test
  memory := .initial
  statement := main
  interrupt := interrupt

def Idle (p : Point Pc Mem) : Prop :=
  p.pc = .wfi → p.mem.uart.buffer.w = 0 ∧ ∀ z, (p.mem.zones.inbox z).len = 0

/-- Nothing arrives between the tests and MZONE_WFI: the buffer is still empty
when the inboxes have been found so, and no interrupt brings anything after that. -/
def NothingArrives (p : Point Pc Mem) : Turn Bool Irq → Prop
  | .statement _ => p.pc = .unmaskInbox true → p.mem.uart.buffer.w = 0
  | .interrupt (.uartIsr temp) => p.pc = .wfi → temp.val = []
  | .interrupt (.msiIsr recv) => p.pc = .wfi → ∀ z, recv z = none

structure Tested (p : Point Pc Mem) : Prop where
  before : ∀ z, p.pc = .inboxEmpty z → ∀ y < z, (p.mem.zones.inbox y).len = 0
  all : p.pc = .unmaskInbox true → ∀ z, (p.mem.zones.inbox z).len = 0

theorem uartIsr_w {b b' : Uart.Buffer} {temp : Uart.Temp} (h : Uart.uartIsr b temp = some b')
    (empty : b.w = 0) : b'.w = 0 ↔ temp.val = [] := by
  unfold Uart.uartIsr at h
  dsimp only at h
  split at h
  · rename_i some_read
    obtain ⟨b₁, copied, rfl⟩ := Option.map_eq_some_iff.mp h
    unfold Uart.Buffer.memcpy at copied
    split at copied
    · cases Option.some.inj copied
      dsimp only
      rw [empty, ← List.length_eq_zero_iff]
      unfold Uart.bufferSize
      omega
    · cases copied
  · rename_i none_read
    cases Option.some.inj h
    rw [empty, ← List.length_eq_zero_iff]
    omega

theorem receive_len (i : Reassembly.Inbox) (m : Message) : (i.receive m).len ≠ 0 := by
  change i.offset + 16 ≠ 0
  omega

theorem receive_idle {s : Reassembly.Zones} (recv : Fin 8 → Option Message)
    (empty : ∀ z, (s.inbox z).len = 0) :
    (∀ z, ((s.receive recv).inbox z).len = 0) ↔ ∀ z, recv z = none := by
  apply forall_congr'
  intro z
  cases hr : recv z with
  | none => simpa [Reassembly.Zones.receive, hr] using empty z
  | some m => simp [Reassembly.Zones.receive, hr, receive_len]

theorem nextInbox_cases (zone : Fin 8) :
    (∃ h : zone.val + 1 < 8, nextInbox zone = .inboxEmpty ⟨zone.val + 1, h⟩) ∨
      zone.val = 7 ∧ nextInbox zone = .unmaskInbox true := by
  unfold nextInbox
  split
  · rename_i h
    exact .inl ⟨h, rfl⟩
  · exact .inr ⟨by omega, rfl⟩

theorem tested_next {p : Point Pc Mem} {z : Fin 8} (h : Tested p) (hp : p.pc = .inboxEmpty z)
    (empty : (p.mem.zones.inbox z).len = 0) : Tested ⟨nextInbox z, p.mem⟩ := by
  have before := h.before z hp
  have upto : ∀ y : Fin 8, y.val ≤ z.val → (p.mem.zones.inbox y).len = 0 := by
    intro y hy
    rcases Nat.lt_or_eq_of_le hy with lt | eq
    · exact before y lt
    · exact Fin.ext eq ▸ empty
  rcases nextInbox_cases z with ⟨lt, next⟩ | ⟨last, next⟩
  · rw [next]
    refine ⟨fun x hx y hy => ?_, nofun⟩
    cases Pc.inboxEmpty.inj hx
    exact upto y (Nat.le_of_lt_succ hy)
  · rw [next]
    exact ⟨nofun, fun _ y => upto y (by omega)⟩

def Pc.testing : Pc → Bool
  | .inboxEmpty _ | .unmaskInbox true | .wfi => true
  | _ => false

theorem idle_away {p : Point Pc Mem} (away : p.pc.testing = false) : Idle p := by
  intro hp
  rw [hp] at away
  cases away

theorem tested_away {p : Point Pc Mem} (away : p.pc.testing = false) : Tested p := by
  refine ⟨fun z hp => ?_, fun hp => ?_⟩
  · rw [hp] at away
    cases away
  · rw [hp] at away
    cases away

theorem main_leads {restart : Bool} {p q : Point Pc Mem} (hs : main restart p.pc p.mem = some q) :
    q.pc.testing = false ∨ q = ⟨.inboxEmpty 0, p.mem⟩ ∨
      (∃ z, p.pc = .inboxEmpty z ∧ (p.mem.zones.inbox z).len = 0 ∧ q = ⟨nextInbox z, p.mem⟩) ∨
      p.pc = .unmaskInbox true ∧ q = ⟨.wfi, p.mem⟩ := by
  obtain ⟨pc, m⟩ := p
  cases pc with
  | readline pc =>
    obtain ⟨r, -, rfl⟩ := Option.map_eq_some_iff.mp hs
    left
    dsimp only
    split
    · rfl
    · split <;> rfl
  | cmdHandler =>
    cases Option.some.inj hs
    left
    split <;> rfl
  | maskMessages | unmaskMessages =>
    cases Option.some.inj hs
    exact .inl rfl
  | msgHandler =>
    cases Option.some.inj hs
    left
    split <;> rfl
  | bufferEmpty =>
    cases Option.some.inj hs
    left
    dsimp only
    split <;> rfl
  | maskInbox =>
    cases Option.some.inj hs
    exact .inr (.inl rfl)
  | inboxEmpty z =>
    simp only [main] at hs
    split at hs
    · rename_i empty
      cases Option.some.inj hs
      exact .inr (.inr (.inl ⟨z, rfl, empty, rfl⟩))
    · cases Option.some.inj hs
      exact .inl rfl
  | unmaskInbox empty =>
    cases empty with
    | false =>
      cases Option.some.inj hs
      exact .inl rfl
    | true =>
      cases Option.some.inj hs
      exact .inr (.inr (.inr ⟨rfl, rfl⟩))
  | wfi | yield =>
    cases Option.some.inj hs
    exact .inl rfl

theorem main_step {restart : Bool} {p q : Point Pc Mem} (h : Tested p)
    (hs : main restart p.pc p.mem = some q) :
    Tested q ∧ (Idle q ↔ NothingArrives p (.statement restart)) := by
  rcases main_leads hs with away | rfl | ⟨z, hp, empty, rfl⟩ | ⟨hp, rfl⟩
  · refine ⟨tested_away away, iff_of_true (idle_away away) fun hp => ?_⟩
    rw [hp] at hs
    cases Option.some.inj hs
    cases away
  · refine ⟨⟨fun z hz y hy => ?_, nofun⟩, iff_of_true nofun fun hp => ?_⟩
    · cases Pc.inboxEmpty.inj hz
      exact absurd hy (Nat.not_lt_zero y.val)
    · rw [hp] at hs
      cases Option.some.inj hs
  · refine ⟨tested_next h hp empty, iff_of_true (fun hw => ?_) fun hu => ?_⟩
    · rcases nextInbox_cases z with ⟨lt, next⟩ | ⟨last, next⟩
      · rw [next] at hw
        cases hw
      · rw [next] at hw
        cases hw
    · cases hp.symm.trans hu
  · refine ⟨⟨nofun, nofun⟩, ?_⟩
    have all := h.all hp
    exact ⟨fun idle _ => (idle rfl).1, fun quiet _ => ⟨quiet hp, all⟩⟩

/-- An interrupt leaves the main loop where it is; the message interrupt does not
come while the inboxes are being tested. -/
theorem interrupt_step {irq : Irq} {p : Point Pc Mem} {mem : Mem} (idle : Idle p) (h : Tested p)
    (hs : interrupt irq p.pc p.mem = some mem) :
    Tested ⟨p.pc, mem⟩ ∧ (Idle ⟨p.pc, mem⟩ ↔ NothingArrives p (.interrupt irq)) := by
  unfold interrupt at hs
  split at hs
  · cases hs
  cases irq with
  | uartIsr temp =>
    obtain ⟨uart, received, rfl⟩ := Option.map_eq_some_iff.mp hs
    obtain ⟨b, run, rfl⟩ := Option.map_eq_some_iff.mp received
    refine ⟨⟨h.before, h.all⟩, ?_⟩
    by_cases hp : p.pc = .wfi
    · obtain ⟨empty, inboxes⟩ := idle hp
      have fresh := uartIsr_w run empty
      exact ⟨fun after _ => fresh.mp (after hp).1, fun nothing _ => ⟨fresh.mpr (nothing hp), inboxes⟩⟩
    · exact iff_of_true (fun hw => absurd hw hp) fun hw => absurd hw hp
  | msiIsr recv =>
    dsimp only at hs
    split at hs
    · cases hs
    · rename_i unmasked
      cases Option.some.inj hs
      refine ⟨⟨fun z hz => ?_, fun hu => ?_⟩, ?_⟩
      · dsimp only at hz
        rw [hz] at unmasked
        exact absurd rfl unmasked
      · dsimp only at hu
        rw [hu] at unmasked
        exact absurd rfl unmasked
      · by_cases hp : p.pc = .wfi
        · obtain ⟨empty, inboxes⟩ := idle hp
          have fresh := receive_idle recv inboxes
          exact ⟨fun after _ => fresh.mp (after hp).2,
            fun nothing _ => ⟨empty, fresh.mpr (nothing hp)⟩⟩
        · exact iff_of_true (fun hw => absurd hw hp) fun hw => absurd hw hp

theorem zone2_step (p : Point Pc Mem) (a : Turn Bool Irq) (q : Point Pc Mem) (idle : Idle p)
    (h : Tested p) (hs : program.machine.step p a = some q) :
    Tested q ∧ (Idle q ↔ NothingArrives p a) := by
  cases a with
  | statement restart => exact main_step h hs
  | interrupt irq =>
    obtain ⟨mem, hm, rfl⟩ := Option.map_eq_some_iff.mp hs
    exact interrupt_step idle h hm

/-- A run comes to MZONE_WFI with nothing left to do exactly if nothing arrives
between the tests and MZONE_WFI. -/
theorem idle_iff_nothingArrives (turns : List (Turn Bool Irq)) :
    program.machine.Always Idle program.machine.initial turns ↔
      program.machine.Obeys NothingArrives program.machine.initial turns :=
  Machine.always_iff_obeys (J := Tested)
    (fun p a q idle h _ hs => (zone2_step p a q idle h hs).1)
    (fun p a q idle h hs => (zone2_step p a q idle h hs).2) turns
    (idle_away rfl) (tested_away rfl)

/-- A byte arrives after buffer_empty has found the buffer empty. -/
def lateByte : List (Turn Bool Irq) :=
  List.replicate 5 (.statement false) ++ [.interrupt (.uartIsr ⟨[113], by decide⟩)] ++
    List.replicate 10 (.statement false)

theorem lateByte_sleeps :
    ∃ p, program.machine.run program.machine.initial lateByte = some p ∧ p.pc = .wfi ∧
      p.mem.uart.buffer.w = 1 ∧ ¬ Idle p := by
  refine ⟨_, rfl, rfl, rfl, fun idle => ?_⟩
  exact absurd (idle rfl).1 (by decide)

end MultiZone.Zone2
