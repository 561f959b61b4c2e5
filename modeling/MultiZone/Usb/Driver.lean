import MultiZone.Message
import Mathlib.Data.UInt

/-! The USB generic class driver of hart 4: the task that enumerates a device and
polls it, and the callbacks of the USB host stack. -/
namespace MultiZone.Usb

/-- mss_usbh_gen_state_t. -/
inductive GenState where
  | idle
  | getClassDescr
  | waitGetClassDescr
  | setConfig
  | waitSetConfig
  | waitDevSettle
  | reqGetReportDesc
  | waitReqGetReportDesc
  | reqSetIdle
  | waitReqSetIdle
  | reqGetGenDesc
  | waitGetGenDesc
  | deviceReady
  | reqSetProtocol
  | waitReqSetProtocol
  | deviceRetry
  | error
  deriving DecidableEq, Repr

/-- GEN_State. -/
inductive MachineState where
  | idle
  | sendData
  | busy
  | getData
  | readData
  | waitReadData
  | sync
  | poll
  | error
  deriving DecidableEq, Repr

inductive ErrCode where
  | noError
  | epNotValid
  | clrCepStallError
  | wrongDescr
  deriving DecidableEq, Repr

inductive TdevState where
  | address
  | other
  deriving DecidableEq, Repr

inductive EpState where
  | cepIdle
  | other
  deriving DecidableEq, Repr

/-- The constants of the USB host stack that the driver tests bits with. -/
structure StdDef where
  attrIntr : Byte
  dirMask : Byte
  nakTout : Byte

/-- Which of the user's functions are not NULL. -/
structure UserCb where
  validConfig : Bool
  tdevReady : Bool
  driverReleased : Bool
  decode : Bool

def hidUserCb : UserCb := ⟨false, false, false, false⟩

inductive Buffer where
  | genConfDesc
  | genDesc
  | genReport
  | rxBuffer
  deriving DecidableEq, Repr

/-- The size of the object. That of USBH_GEN_Desc includes the byte of padding
before wItemLength. -/
def Buffer.size : Buffer → Nat
  | genConfDesc => 34
  | genDesc => 10
  | genReport => 50
  | rxBuffer => 10

inductive Recipient where
  | device
  | interface
  deriving DecidableEq, Repr

inductive DescrType where
  | configuration
  | gen
  | report
  deriving DecidableEq, Repr

inductive Setup where
  | getDescriptor (recipient : Recipient) (descr : DescrType) (length : UInt16)
  | setConfig (value : Byte)
  | setIdle
  | setProtocol
  deriving DecidableEq

/-- What the driver calls: the host stack, the user's functions, and ASSERT(0).
All control transfers are requested with direction IN. -/
inductive Call where
  | configureControlPipe (addr : Byte)
  | startControlXfr (setup : Setup) (buffer : Buffer) (length : UInt16)
  | configureInPipe (addr num : Byte) (maxpktsz : UInt16)
  | readInPipe (addr num : Byte) (maxpktsz : UInt16) (buffer : Buffer) (length : UInt16)
  | dmaClrCtrlreg (channel : Nat)
  | validConfig
  | tdevReady
  | driverReleased
  | decode
  | assertFail
  deriving DecidableEq

structure TdevEp where
  num : Byte
  maxpktsz : UInt16
  desclen : UInt16
  deriving DecidableEq

/-- The variables of the driver. What is stored in g_gen_report and in
USBH_GEN_RX_buffer is never read by it. -/
structure Driver where
  genState : GenState
  machineState : MachineState
  errorCode : ErrCode
  allocEvent : Bool
  cepEvent : Byte
  txEvent : Bool
  rxEvent : Bool
  tdevAddr : Byte
  confDesc : Fin 34 → Byte
  genDesc : Fin 10 → Byte
  inEp : TdevEp
  waitMili : UInt32
  handleWaitMili : UInt32

/-- The variables after MSS_USBH_GEN_init. -/
def Driver.initial : Driver where
  genState := .idle
  machineState := .idle
  errorCode := .noError
  allocEvent := false
  cepEvent := 0
  txEvent := false
  rxEvent := false
  tdevAddr := 0
  confDesc := fun _ => 0
  genDesc := fun _ => 0
  inEp := ⟨0, 0, 0⟩
  waitMili := 0
  handleWaitMili := 0

structure Env where
  tdevState : TdevState
  cepState : EpState
  milis : UInt32

def littleEndian (low high : Byte) : UInt16 := (high.toUInt16 <<< 8) ||| low.toUInt16

/-- USBH_GEN_Desc.wItemLength, which lies at offset 8 of the structure. -/
def Driver.wItemLength (d : Driver) : UInt16 := littleEndian (d.genDesc 8) (d.genDesc 9)

def validateClassDesc : ErrCode := .noError

def extractTdevEpDesc (k : StdDef) (d : Driver) : ErrCode × Driver :=
  if d.confDesc 30 &&& k.attrIntr = 0 then (.wrongDescr, d)
  else if d.confDesc 29 &&& k.dirMask ≠ 0 then
    (.noError, { d with inEp := {
      num := d.confDesc 29 &&& 0x7f
      maxpktsz := littleEndian (d.confDesc 31) (d.confDesc 32)
      desclen := littleEndian (d.confDesc 25) (d.confDesc 26) } })
  else (.wrongDescr, d)

def Driver.afterCheck (d : Driver) (res : ErrCode) : Driver :=
  if res = .noError then { d with genState := .setConfig }
  else { d with genState := .error, errorCode := res }

def handle (cb : UserCb) (env : Env) (d : Driver) : Driver × List Call :=
  match d.machineState with
  | .idle =>
    ({ d with machineState := .readData },
      [.configureInPipe d.tdevAddr d.inEp.num d.inEp.maxpktsz])
  | .readData =>
    ({ d with machineState := .poll, handleWaitMili := env.milis },
      [.readInPipe d.tdevAddr d.inEp.num d.inEp.maxpktsz .rxBuffer d.inEp.maxpktsz])
  | .poll =>
    (if env.milis - d.handleWaitMili > 10 then { d with machineState := .waitReadData } else d, [])
  | .waitReadData =>
    if d.rxEvent then
      ({ d with rxEvent := false, machineState := .readData }, if cb.decode then [.decode] else [])
    else (d, [])
  | .sendData | .busy | .getData | .sync | .error => (d, [])

def genTask (k : StdDef) (cb : UserCb) (env : Env) (d : Driver) : Driver × List Call :=
  match d.genState with
  | .idle =>
    (if d.allocEvent then { d with allocEvent := false, genState := .getClassDescr } else d, [])
  | .getClassDescr =>
    if env.tdevState = .address ∧ env.cepState = .cepIdle then
      ({ d with genState := .waitGetClassDescr },
        [.configureControlPipe d.tdevAddr,
          .startControlXfr (.getDescriptor .device .configuration 34) .genConfDesc 34])
    else (d, [])
  | .waitGetClassDescr =>
    if d.cepEvent ≠ 0 then
      let d := { d with cepEvent := 0 }.afterCheck validateClassDesc
      let r := extractTdevEpDesc k d
      (r.2.afterCheck r.1, [])
    else (d, [])
  | .setConfig =>
    ({ d with genState := .waitSetConfig },
      (if cb.validConfig then [.validConfig] else []) ++
        [.startControlXfr (.setConfig (d.confDesc 5)) .genConfDesc 0])
  | .waitSetConfig =>
    (if d.cepEvent ≠ 0 then
      { d with cepEvent := 0, waitMili := env.milis, genState := .waitDevSettle } else d, [])
  | .waitDevSettle =>
    (if env.milis - d.waitMili > 60 then { d with genState := .reqGetGenDesc } else d, [])
  | .reqGetGenDesc =>
    ({ d with confDesc := fun _ => 0, genState := .waitGetGenDesc },
      [.startControlXfr (.getDescriptor .interface .gen 9) .genDesc 9])
  | .waitGetGenDesc =>
    (if d.cepEvent ≠ 0 then { d with cepEvent := 0, genState := .reqGetReportDesc } else d, [])
  | .reqGetReportDesc =>
    ({ d with genState := .waitReqGetReportDesc },
      [.configureControlPipe d.tdevAddr,
        .startControlXfr (.getDescriptor .interface .report d.wItemLength) .genReport d.wItemLength])
  | .waitReqGetReportDesc =>
    (if d.cepEvent ≠ 0 then { d with cepEvent := 0, genState := .reqSetIdle } else d, [])
  | .reqSetIdle =>
    ({ d with genState := .waitReqSetIdle }, [.startControlXfr .setIdle .genReport 0])
  | .waitReqSetIdle =>
    if d.cepEvent ≠ 0 then
      ({ d with cepEvent := 0, genState := .deviceReady },
        if cb.tdevReady then [.tdevReady] else [])
    else (d, [])
  | .reqSetProtocol =>
    ({ d with genState := .waitReqSetProtocol }, [.startControlXfr .setProtocol .genReport 0])
  | .waitReqSetProtocol =>
    (if d.cepEvent ≠ 0 then { d with cepEvent := 0, genState := .reqSetProtocol } else d, [])
  | .deviceReady => handle cb env d
  | .deviceRetry | .error => (d, [.assertFail])

def allocateCb (tdevAddr : Byte) (d : Driver) : Driver :=
  { d with tdevAddr := tdevAddr, allocEvent := true }

def releaseCb (cb : UserCb) (d : Driver) : Driver × List Call :=
  ({ d with
      genState := .idle
      confDesc := fun _ => 0
      inEp := { d.inEp with maxpktsz := 0, num := 0 }
      tdevAddr := 0 },
    [.dmaClrCtrlreg 2, .dmaClrCtrlreg 1] ++ if cb.driverReleased then [.driverReleased] else [])

/-- usbh_gen_cep_done_cb; the address and the count are ignored. -/
def cepDoneCb (status : Byte) (d : Driver) : Driver := { d with cepEvent := status }

def txCompleteCb (d : Driver) : Driver := { d with txEvent := true }

def rxCb (k : StdDef) (status : Byte) (d : Driver) : Driver × List Call :=
  if status = 0 then ({ d with rxEvent := true }, [])
  else if k.nakTout &&& status ≠ 0 then ({ d with genState := .deviceRetry }, [])
  else (d, [.assertFail])

def fill {n : Nat} (buffer : Fin n → Byte) (data : List Byte) : Fin n → Byte :=
  fun i => (data[i.val]?).getD (buffer i)

def Driver.receive (d : Driver) (buffer : Buffer) (data : List Byte) : Driver :=
  match buffer with
  | .genConfDesc => { d with confDesc := fill d.confDesc data }
  | .genDesc => { d with genDesc := fill d.genDesc data }
  | .genReport | .rxBuffer => d

end MultiZone.Usb
