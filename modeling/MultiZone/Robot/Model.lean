import MultiZone.Message
import MultiZone.Sequencer
import Mathlib.Data.UInt
import Mathlib.Logic.Function.Basic

/-! The robot application of hart 4: the main loop, statement by statement, and
the SysTick and software interrupts that preempt it. -/
namespace MultiZone.Robot
open Transition Sequencer

inductive Zone where
  | zone1
  | zone2
  | zone3
  | zone4
  deriving DecidableEq, Repr

def Zone.next : Zone → Option Zone
  | .zone1 => some .zone2
  | .zone2 => some .zone3
  | .zone3 => some .zone4
  | .zone4 => none

inductive UsbState where
  | disconnected
  | connected
  deriving DecidableEq, Repr

inductive Task where
  | usbHost
  | robotSeq
  | robotCmd
  deriving DecidableEq, Repr

abbrev Time := UInt64

/-- UINT64_MAX, the deadline of a task that is disarmed. -/
def never : Time := 0xFFFFFFFFFFFFFFFF

def manCmdTime : Time := 200 * 1000

def cmdStop : BitVec 32 := 0x000000

/-- What MSS_USBH_get_cep_state returns; `other` is any further state. -/
inductive CepState where
  | epValid
  | cepIdle
  | other
  deriving DecidableEq, Repr

def CepState.ready : CepState → Bool
  | .epValid | .cepIdle => true
  | .other => false

/-- A call of usb_write: the command it is passed and, while a sequence is
running, the command of the sequence's current step. -/
structure Write where
  cmd : BitVec 32
  current : Option (BitVec 32)
  deriving DecidableEq

/-- The variables of the application. The last three fields are the history: the
last command handed to MSS_USBH_start_control_xfr since the device connected,
the state whose branch the switch ran last, and the calls of usb_write. -/
structure Mem where
  manCmd : BitVec 32
  usbState : UsbState
  usbEvent : Bool
  usbDataBuf : BitVec 32
  vars : State
  timecmp : Task → Time
  inbox : Zone → Message
  sent : Option (BitVec 32)
  handled : UsbState
  writes : List Write

def Mem.initial : Mem where
  manCmd := cmdStop
  usbState := .disconnected
  usbEvent := false
  usbDataBuf := 0
  vars := .initial
  timecmp := fun _ => never
  inbox := fun _ => .zero
  sent := none
  handled := .disconnected
  writes := []

namespace Mem

def timerSet (m : Mem) (task : Task) (timecmp : Time) : Mem :=
  { m with timecmp := Function.update m.timecmp task timecmp }

def called (m : Mem) (cmd : BitVec 32) : Mem :=
  let current :=
    if owiSequenceIsRunning m.vars then (owiSequenceGetCmd builtIn m.vars).toOption else none
  { m with writes := m.writes ++ [⟨cmd, current⟩] }

/-- MSS_USBH_start_control_xfr is handed the buffer, whatever it holds by then. -/
def startControlXfr (m : Mem) : Mem := { m with sent := some m.usbDataBuf }

/-- usb_write inside an interrupt, where nothing comes in between. -/
def usbWrite (m : Mem) (cep : CepState) (cmd : BitVec 32) : Mem :=
  let m := { m.called cmd with usbDataBuf := cmd }
  if cep.ready then m.startControlXfr else m

def classDriverAssigned (m : Mem) : Mem :=
  { m with
    usbEvent := true
    usbState := .connected
    sent := if m.usbState = .connected then m.sent else none }

def dettached (m : Mem) : Mem :=
  { m with
    usbEvent := if m.usbState = .connected then true else m.usbEvent
    usbState := .disconnected }

end Mem

inductive Callback where
  | classDriverAssigned
  | dettached
  deriving DecidableEq, Repr

def Callback.run (m : Mem) : Callback → Mem
  | .classDriverAssigned => m.classDriverAssigned
  | .dettached => m.dettached

structure Tick where
  time : Time
  callbacks : List Callback
  seqNow : Time
  seqCep : CepState
  cmdCep : CepState

def usbHostTask (t : Tick) (m : Mem) : Mem × Time :=
  (t.callbacks.foldl Callback.run m, 0)

/-- A step without a meaning in C has no successor. -/
def robotSeqTask (t : Tick) (m : Mem) : Except Fault (Mem × Time) :=
  match m.usbState with
  | .disconnected => .ok (m, never)
  | .connected =>
    (owiSequenceNext builtIn m.vars).bind fun r =>
      let m := { m with vars := r.2 }
      if r.1 = -1 then .ok (m, never)
      else (owiSequenceGetCmd builtIn m.vars).bind fun cmd =>
        (owiSequenceGetMs builtIn m.vars).map fun ms =>
          (m.usbWrite t.seqCep cmd, t.seqNow + UInt64.ofInt (ms * 1000))

def robotCmdTask (t : Tick) (m : Mem) : Mem × Time :=
  ({ m with manCmd := cmdStop }.usbWrite t.cmdCep cmdStop, never)

def runTask (t : Tick) (m : Mem) : Task → Except Fault (Mem × Time)
  | .usbHost => .ok (usbHostTask t m)
  | .robotSeq => robotSeqTask t m
  | .robotCmd => .ok (robotCmdTask t m)

def timerRound (t : Tick) (m : Mem) (task : Task) : Except Fault Mem :=
  if t.time ≥ m.timecmp task then (runTask t m task).map fun r => r.1.timerSet task r.2
  else .ok m

def timerHandler (t : Tick) (m : Mem) : Except Fault Mem :=
  [Task.usbHost, .robotSeq, .robotCmd].foldlM (timerRound t) m

/-- Where the main loop calls usb_write: to acknowledge a connection, or for the
manual command of a zone. -/
inductive Site where
  | ack
  | key (zone : Zone)
  deriving DecidableEq, Repr

/-- The next statement of the main loop. Tests of a message alone are taken
together with the test before them. -/
inductive Pc where
  | init
  | testEvent
  | switchState
  | announce (branch : UsbState) (again : Bool)
  | usbWrite (site : Site)
  | dataBuf (site : Site) (cmd : BitVec 32)
  | getCepState (site : Site)
  | testCep (site : Site) (cepSt : CepState)
  | configurePipe (site : Site)
  | startXfr (site : Site)
  | readMtime (site : Site)
  | timerSet (site : Site) (timecmp : Time)
  | stop (pc : StopPc)
  | clearEvent
  | mask (zone : Zone)
  | testInbox (zone : Zone)
  | pong (zone : Zone)
  | testConnected (zone : Zone)
  | testManCmd (zone : Zone)
  | stopReq (zone : Zone)
  | testRunning (zone : Zone)
  | start (zone : Zone) (seq : OwiSequence) (pc : StartPc)
  | seqTimerSet (zone : Zone)
  | setManCmd (zone : Zone) (cmd : BitVec 32)
  | testKey (zone : Zone)
  | clearInbox (zone : Zone)
  | unmask (zone : Zone)
  | wfi
  deriving DecidableEq, Repr

def UsbState.afterAnnounce : UsbState → Pc
  | .connected => .usbWrite .ack
  | .disconnected => .stop .sequence

def Site.cmd (m : Mem) : Site → BitVec 32
  | .ack => 0x000002
  | .key _ => m.manCmd

def Site.delay : Site → Time
  | .ack => 300 * 1000
  | .key _ => manCmdTime

def Site.next : Site → Pc
  | .ack => .clearEvent
  | .key zone => .clearInbox zone

/-- Manual single-command adjustments. -/
def keys : List (Char × BitVec 32) :=
  [('q', 0x000001), ('a', 0x000002), ('w', 0x000004), ('s', 0x000008), ('e', 0x000010),
   ('d', 0x000020), ('r', 0x000040), ('f', 0x000080), ('t', 0x000100), ('g', 0x000200),
   ('y', 0x010000)]

/-- The chain of strcmp that starts a sequence or sets man_cmd. -/
def dispatch (zone : Zone) (msg : Message) : Pc :=
  if msg.is (ascii ['s', 't', 'a', 'r', 't']) then .start zone .main .test
  else if msg.is (ascii ['f', 'o', 'l', 'd']) then .start zone .fold .test
  else if msg.is (ascii ['u', 'n', 'f', 'o', 'l', 'd']) then .start zone .unfold .test
  else match keys.find? fun key => msg.is (ascii [key.1]) with
    | some key => .setManCmd zone key.2
    | none => .testKey zone

structure Input where
  now : Time
  cep : CepState

def statement (i : Input) (pc : Pc) (m : Mem) : Point Pc Mem :=
  match pc with
  | .init => ⟨.testEvent, m.timerSet .usbHost 0⟩
  | .testEvent => ⟨if m.usbEvent then .switchState else .mask .zone1, m⟩
  | .switchState => ⟨.announce m.usbState false, { m with handled := m.usbState }⟩
  | .announce branch again => ⟨if again then branch.afterAnnounce else .announce branch true, m⟩
  | .usbWrite site => ⟨.dataBuf site (site.cmd m), m.called (site.cmd m)⟩
  | .dataBuf site cmd => ⟨.getCepState site, { m with usbDataBuf := cmd }⟩
  | .getCepState site => ⟨.testCep site i.cep, m⟩
  | .testCep site cepSt => ⟨if cepSt.ready then .configurePipe site else .readMtime site, m⟩
  | .configurePipe site => ⟨.startXfr site, m⟩
  | .startXfr site => ⟨.readMtime site, m.startControlXfr⟩
  | .readMtime site => ⟨.timerSet site (i.now + site.delay), m⟩
  | .timerSet site timecmp => ⟨site.next, m.timerSet .robotCmd timecmp⟩
  | .stop pc =>
    let r := owiSequenceStop pc m.vars
    ⟨r.1.elim .clearEvent .stop, { m with vars := r.2 }⟩
  | .clearEvent => ⟨.mask .zone1, { m with usbEvent := false }⟩
  | .mask zone => ⟨.testInbox zone, m⟩
  | .testInbox zone =>
    ⟨if (m.inbox zone).first ≠ 0 then
      if (m.inbox zone).is (ascii ['p', 'i', 'n', 'g']) then .pong zone else .testConnected zone
      else .unmask zone, m⟩
  | .pong zone => ⟨.clearInbox zone, m⟩
  | .testConnected zone =>
    ⟨if m.usbState = .connected then .testManCmd zone else .clearInbox zone, m⟩
  | .testManCmd zone =>
    ⟨if m.manCmd = cmdStop then
      if (m.inbox zone).is (ascii ['s', 't', 'o', 'p']) then .stopReq zone else .testRunning zone
      else .clearInbox zone, m⟩
  | .stopReq zone => ⟨.clearInbox zone, { m with vars := owiSequenceStopReq m.vars }⟩
  | .testRunning zone =>
    ⟨if owiSequenceIsRunning m.vars then .clearInbox zone else dispatch zone (m.inbox zone), m⟩
  | .start zone seq pc =>
    let r := owiSequenceStart builtIn seq pc m.vars
    ⟨r.1.elim (.seqTimerSet zone) (.start zone seq), { m with vars := r.2 }⟩
  | .seqTimerSet zone => ⟨.testKey zone, m.timerSet .robotSeq 0⟩
  | .setManCmd zone cmd => ⟨.testKey zone, { m with manCmd := cmd }⟩
  | .testKey zone =>
    ⟨if m.manCmd ≠ cmdStop then .usbWrite (.key zone) else .clearInbox zone, m⟩
  | .clearInbox zone =>
    ⟨.unmask zone, { m with inbox := Function.update m.inbox zone (m.inbox zone).clear }⟩
  | .unmask zone => ⟨zone.next.elim .wfi .mask, m⟩
  | .wfi => ⟨.testEvent, m⟩

/-- The statements between clear_csr(mie, MIP_MSIP) and set_csr(mie, MIP_MSIP). -/
def Pc.masked : Pc → Bool
  | .testInbox _ | .pong _ | .testConnected _ | .testManCmd _ | .stopReq _ | .testRunning _
  | .start _ _ _ | .seqTimerSet _ | .setManCmd _ _ | .testKey _ | .clearInbox _
  | .unmask _ => true
  | .usbWrite site | .dataBuf site _ | .getCepState site | .testCep site _
  | .configurePipe site | .startXfr site | .readMtime site | .timerSet site _ =>
    site ≠ .ack
  | .init | .testEvent | .switchState | .announce _ _ | .stop _ | .clearEvent | .mask _
  | .wfi => false

inductive Irq where
  | sysTick (tick : Tick)
  | software (recv : Zone → Option Message)

def interrupt (i : Irq) (pc : Pc) (m : Mem) : Option Mem :=
  match i with
  | .sysTick tick => (timerHandler tick m).toOption
  | .software recv =>
    if pc.masked then none else some { m with inbox := fun z => (recv z).getD (m.inbox z) }

def program : Program Pc Mem Input Irq where
  entry := .init
  memory := .initial
  statement i pc m := some (statement i pc m)
  interrupt := interrupt

abbrev Step := Turn Input Irq

section Steps

def proceed (n : Nat) (now : Time) : List Step := List.replicate n (.statement ⟨now, .cepIdle⟩)

/-- A SysTick with the given callbacks, the control endpoint idle throughout. -/
def sysTick (time : Time) (callbacks : List Callback) : Step :=
  .interrupt (.sysTick ⟨time, callbacks, time, .cepIdle, .cepIdle⟩)

def receive (zone : Zone) (text : List Char) : Step :=
  .interrupt (.software fun z => if z = zone then some (.ofText (ascii text)) else none)

end Steps

end MultiZone.Robot
