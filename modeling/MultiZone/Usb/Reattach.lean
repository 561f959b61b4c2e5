import MultiZone.Usb.Lengths
import MultiZone.Transition.Reactive

/-! What a driver that has been released remembers of the device that was there
before. The release resets the state of the enumeration, but neither the state of
the polling nor the event flags and the last descriptor. -/
namespace MultiZone.Usb
open Transition

inductive Input where
  | task (env : Env)
  | allocate (tdevAddr : Byte)
  | release (tdevAddr : Byte)
  | cepDone (status : Byte)
  | txComplete
  | rx (status : Byte)
  | receive (buffer : Buffer) (data : List Byte)

def driver (k : StdDef) (cb : UserCb) : Reactive Driver Input Call where
  react d
    | .task env => genTask k cb env d
    | .allocate tdevAddr => (allocateCb tdevAddr d, [])
    | .release _ => releaseCb cb d
    | .cepDone status => (cepDoneCb status d, [])
    | .txComplete => (txCompleteCb d, [])
    | .rx status => rxCb k status d
    | .receive buffer data => (d.receive buffer data, [])

def GenState.settles : GenState → Bool
  | .waitDevSettle => true
  | _ => false

def MachineState.polls : MachineState → Bool
  | .poll => true
  | _ => false

/-- A clock value, while its time is awaited. -/
def awaited (waiting : Bool) (mili : UInt32) : UInt32 := if waiting then mili else 0

/-- Of the last descriptor, the length. -/
def lengthOnly (genDesc : Fin 10 → Byte) : Fin 10 → Byte :=
  fun i => if i.val < 8 then 0 else genDesc i

/-- The variables, as far as their values matter later on. -/
def Driver.seen (d : Driver) : Driver :=
  { d with
    errorCode := .noError
    txEvent := false
    genDesc := lengthOnly d.genDesc
    inEp := { d.inEp with desclen := 0 }
    waitMili := awaited d.genState.settles d.waitMili
    handleWaitMili := awaited d.machineState.polls d.handleWaitMili }

/-- Nothing is left of an earlier device that the release does not reset. -/
structure Fresh (d : Driver) : Prop where
  machineState : d.machineState = .idle
  allocEvent : d.allocEvent = false
  cepEvent : d.cepEvent = 0
  rxEvent : d.rxEvent = false
  length : d.wItemLength = 0

section Bisimulation

variable {k : StdDef} {cb : UserCb} {env : Env} {d : Driver}

@[simp] theorem awaited_true (mili : UInt32) : awaited true mili = mili := rfl

@[simp] theorem awaited_false (mili : UInt32) : awaited false mili = 0 := rfl

@[simp] theorem awaited_awaited (waiting : Bool) (mili : UInt32) :
    awaited waiting (awaited waiting mili) = awaited waiting mili := by
  cases waiting <;> rfl

@[simp] theorem lengthOnly_lengthOnly (genDesc : Fin 10 → Byte) :
    lengthOnly (lengthOnly genDesc) = lengthOnly genDesc := by
  funext i
  unfold lengthOnly
  split <;> rfl

@[simp] theorem lengthOnly_low (genDesc : Fin 10 → Byte) : lengthOnly genDesc 8 = genDesc 8 := rfl

@[simp] theorem lengthOnly_high (genDesc : Fin 10 → Byte) : lengthOnly genDesc 9 = genDesc 9 := rfl

theorem lengthOnly_fill (genDesc : Fin 10 → Byte) (data : List Byte) :
    lengthOnly (fill genDesc data) = lengthOnly (fill (lengthOnly genDesc) data) := by
  funext i
  unfold lengthOnly fill
  split
  · rfl
  · rename_i inside
    simp only [inside, if_false]

/-- The same calls, and the same of what matters afterwards. -/
def Alike (r q : Driver × List Call) : Prop := r.2 = q.2 ∧ r.1.seen = q.1.seen

attribute [local simp] Alike Driver.seen GenState.settles MachineState.polls

theorem handle_seen (ready : d.genState = .deviceReady) :
    Alike (handle cb env d) (handle cb env d.seen) := by
  cases state : d.machineState with
  | idle | readData | sendData | busy | getData | sync | error => simp [handle, state, ready]
  | poll =>
    by_cases due : env.milis - d.handleWaitMili > 10 <;> simp [handle, state, due, ready]
  | waitReadData =>
    cases event : d.rxEvent <;> simp [handle, state, event, ready]

theorem genTask_seen : Alike (genTask k cb env d) (genTask k cb env d.seen) := by
  cases state : d.genState with
  | deviceReady =>
    have same : d.seen.genState = .deviceReady := state
    rw [genTask, genTask, state, same]
    exact handle_seen state
  | setConfig | reqGetGenDesc | reqSetIdle | reqSetProtocol | deviceRetry | error =>
    simp [genTask, state]
  | reqGetReportDesc => simp [genTask, Driver.wItemLength, state]
  | idle =>
    cases event : d.allocEvent <;> simp [genTask, state, event]
  | getClassDescr =>
    by_cases ready : env.tdevState = .address ∧ env.cepState = .cepIdle <;>
      simp [genTask, state, ready]
  | waitGetClassDescr =>
    by_cases event : d.cepEvent = 0
    · simp [genTask, state, event]
    · by_cases attr : d.confDesc 30 &&& k.attrIntr = 0 <;>
        by_cases dir : d.confDesc 29 &&& k.dirMask = 0 <;>
          simp [genTask, state, event, validateClassDesc, Driver.afterCheck, extractTdevEpDesc,
            attr, dir]
  | waitSetConfig | waitGetGenDesc | waitReqGetReportDesc | waitReqSetIdle | waitReqSetProtocol =>
    by_cases event : d.cepEvent = 0 <;> simp [genTask, state, event]
  | waitDevSettle =>
    by_cases settled : env.milis - d.waitMili > 60 <;> simp [genTask, state, settled]

theorem react_seen (i : Input) : Alike ((driver k cb).react d i) ((driver k cb).react d.seen i) := by
  cases i with
  | task env => exact genTask_seen
  | allocate tdevAddr => simp [driver, allocateCb]
  | release tdevAddr => simp [driver, releaseCb]
  | cepDone status => simp [driver, cepDoneCb]
  | txComplete => simp [driver, txCompleteCb]
  | rx status =>
    by_cases ok : status = 0 <;> by_cases nak : k.nakTout &&& status = 0 <;>
      simp [driver, rxCb, ok, nak]
  | receive buffer data =>
    cases buffer with
    | genDesc => simp [driver, Driver.receive, ← lengthOnly_fill]
    | genConfDesc | genReport | rxBuffer => simp [driver, Driver.receive]

/-- Drivers that agree on what matters cannot be told apart. -/
theorem indistinguishable_of_seen {e : Driver} (same : d.seen = e.seen) :
    (driver k cb).Indistinguishable d e := by
  refine Reactive.indistinguishable_of_bisimulation (R := fun d e => d.seen = e.seen) ?_ same
  intro d e i same
  have left : Alike ((driver k cb).react d i) ((driver k cb).react d.seen i) := react_seen i
  have right : Alike ((driver k cb).react e i) ((driver k cb).react e.seen i) := react_seen i
  rw [← same] at right
  exact ⟨left.1.trans right.1.symm, left.2.trans right.2.symm⟩

end Bisimulation

section Distinguishing

def poll (milis : UInt32) : Input := .task ⟨.address, .cepIdle, milis⟩

/-- A device is attached, and its descriptor, which the driver accepts, arrives. -/
def attach (k : StdDef) : List Input :=
  [.allocate 1, poll 0, poll 0,
    .receive .genConfDesc (List.replicate 29 0 ++ [k.dirMask, k.attrIntr])]

/-- The transfers up to the class descriptor complete; the latter is not sent. -/
def configure : List Input :=
  [.cepDone 1, poll 0, poll 0, .cepDone 1, poll 0, poll 100, poll 100, .cepDone 1, poll 100]

def makeReady : List Input := [poll 100, .cepDone 1, poll 100, poll 100, .cepDone 1, poll 100]

def readOnce : List Input := [poll 100, poll 100, poll 200]

variable {k : StdDef} {cb : UserCb} {d : Driver}

def attached (k : StdDef) (d : Driver) : Driver :=
  { d with
    genState := .waitGetClassDescr
    allocEvent := false
    tdevAddr := 1
    confDesc := fill (fun _ => 0) (List.replicate 29 0 ++ [k.dirMask, k.attrIntr])
    inEp := { d.inEp with maxpktsz := 0, num := 0 } }

theorem after_attach : (driver k cb).after (releaseCb cb d).1 (attach k) = attached k d := rfl

def configured (k : StdDef) (d : Driver) : Driver :=
  { attached k d with
    genState := .reqGetReportDesc
    cepEvent := 0
    confDesc := fun _ => 0
    inEp := ⟨k.dirMask &&& 0x7f, littleEndian 0 0, littleEndian 0 0⟩
    waitMili := 0 }

theorem after_makeReady : (driver k cb).after (configured k d) makeReady =
    { configured k d with genState := .deviceReady } := by
  simp [Reactive.after, driver, poll, cepDoneCb, genTask, makeReady, configured, attached]

theorem after_readOnce (idle : d.machineState = .idle) :
    (driver k cb).after { configured k d with genState := .deviceReady } readOnce =
      { configured k d with
        genState := .deviceReady
        machineState := .waitReadData
        handleWaitMili := 100 } := by
  simp [Reactive.after, driver, poll, genTask, handle, readOnce, configured, attached, idle]

theorem allocEvent_clear
    (same : (driver k cb).Indistinguishable (releaseCb cb d).1 (releaseCb cb .initial).1) :
    d.allocEvent = false := by
  have calls := (same.after [poll 0]).react (poll 0)
  cases event : d.allocEvent with
  | false => rfl
  | true => simp [Reactive.after, driver, poll, releaseCb, genTask, event, Driver.initial] at calls

theorem wItemLength_initial
    (same : (driver k cb).Indistinguishable (configured k d) (configured k .initial)) :
    d.wItemLength = 0 := by
  have calls := same.react (poll 100)
  simp only [driver, poll, genTask, configured, List.cons.injEq, Call.startControlXfr.injEq]
    at calls
  have length : d.wItemLength = Driver.initial.wItemLength := calls.2.1.2.2
  exact length

theorem machineState_idle
    (same : (driver k cb).Indistinguishable { configured k d with genState := .deviceReady }
      { configured k .initial with genState := .deviceReady }) : d.machineState = .idle := by
  have calls := same.react (poll 100)
  have handled : (handle cb ⟨.address, .cepIdle, 100⟩
      { configured k d with genState := .deviceReady }).2 = [.configureInPipe 1
        (k.dirMask &&& 0x7f) (littleEndian 0 0)] := calls
  cases state : d.machineState with
  | idle => rfl
  | readData => simp [handle, configured, attached, state] at handled
  | waitReadData =>
    cases event : d.rxEvent <;> cases decode : cb.decode <;>
      simp [handle, configured, attached, state, event, decode] at handled
  | poll | sendData | busy | getData | sync | error =>
    simp [handle, configured, attached, state] at handled

theorem rxEvent_clear
    (same : (driver k cb).Indistinguishable
      { configured k d with
        genState := .deviceReady
        machineState := .waitReadData
        handleWaitMili := 100 }
      { configured k .initial with
        genState := .deviceReady
        machineState := .waitReadData
        handleWaitMili := 100 }) : d.rxEvent = false := by
  have calls := (same.after [poll 200]).react (poll 200)
  cases event : d.rxEvent with
  | false => rfl
  | true =>
    simp [Reactive.after, driver, poll, genTask, handle, configured, attached, event,
      Driver.initial] at calls

variable (attr : k.attrIntr ≠ 0) (dir : k.dirMask ≠ 0)
include attr dir

theorem attached_passes (event : d.cepEvent ≠ 0) :
    (driver k cb).react (attached k d) (poll 0) = ({ attached k d with
      genState := .setConfig
      cepEvent := 0
      inEp := ⟨k.dirMask &&& 0x7f, littleEndian 0 0, littleEndian 0 0⟩ }, []) := by
  have attr' : k.attrIntr &&& k.attrIntr ≠ 0 := by simpa using attr
  have dir' : k.dirMask &&& k.dirMask ≠ 0 := by simpa using dir
  exact check_passes (k := k) (d := attached k d) cb ⟨.address, .cepIdle, 0⟩ rfl event attr' dir'

theorem cepEvent_clear
    (same : (driver k cb).Indistinguishable (attached k d) (attached k .initial)) :
    d.cepEvent = 0 := by
  have calls := (same.after [poll 0]).react (poll 0)
  apply Decidable.byContradiction
  intro event
  have passes : (driver k cb).react (attached k d) (poll 0) = _ := attached_passes attr dir event
  change ((driver k cb).react ((driver k cb).react (attached k d) (poll 0)).1 (poll 0)).2 = _
    at calls
  rw [passes] at calls
  simp [Reactive.after, driver, poll, genTask, attached, Driver.initial] at calls

theorem after_configure :
    (driver k cb).after (attached k d) configure = configured k d := by
  have passes : (driver k cb).react (attached k (cepDoneCb 1 d)) (poll 0) = _ :=
    attached_passes attr dir (by simp [cepDoneCb])
  change (driver k cb).after ((driver k cb).react (attached k (cepDoneCb 1 d)) (poll 0)).1 _ = _
  rw [passes]
  simp [Reactive.after, driver, poll, cepDoneCb, genTask, configured, attached]

/-- Whatever of an earlier device is left makes some later calls differ. -/
theorem fresh_of_indistinguishable
    (same : (driver k cb).Indistinguishable (releaseCb cb d).1 .initial) : Fresh d := by
  have start : Driver.initial = (releaseCb cb .initial).1 := rfl
  rw [start] at same
  have first := same.after (attach k)
  rw [after_attach, after_attach] at first
  have second := first.after configure
  rw [after_configure attr dir, after_configure attr dir] at second
  have third := second.after makeReady
  rw [after_makeReady, after_makeReady] at third
  have idle := machineState_idle third
  have fourth := third.after readOnce
  rw [after_readOnce idle, after_readOnce rfl] at fourth
  exact ⟨idle, allocEvent_clear same, cepEvent_clear attr dir first, rxEvent_clear fourth,
    wItemLength_initial second⟩

end Distinguishing

section Reattach

theorem littleEndian_eq_zero {low high : Byte} :
    littleEndian low high = 0 ↔ low = 0 ∧ high = 0 := by
  unfold littleEndian
  rw [UInt16.or_eq_zero_iff]
  constructor
  · rintro ⟨h, l⟩
    have lowNat : low.toNat = 0 := by simpa using congrArg UInt16.toNat l
    have highNat : high.toNat * 256 % 65536 = 0 := by
      simpa [Nat.shiftLeft_eq] using congrArg UInt16.toNat h
    have bound := high.toNat_lt
    have highZero : high.toNat = 0 := by omega
    exact ⟨UInt8.toNat_inj.mp lowNat, UInt8.toNat_inj.mp highZero⟩
  · rintro ⟨rfl, rfl⟩
    decide

theorem seen_of_fresh {cb : UserCb} {d : Driver} (fresh : Fresh d) :
    (releaseCb cb d).1.seen = Driver.initial.seen := by
  obtain ⟨low, high⟩ := littleEndian_eq_zero.mp fresh.length
  have length : lengthOnly d.genDesc = lengthOnly fun _ => 0 := by
    funext i
    unfold lengthOnly
    split
    · rfl
    · have last : i = 8 ∨ i = 9 := by omega
      rcases last with rfl | rfl
      · exact low
      · exact high
  simp [releaseCb, Driver.seen, Driver.initial, GenState.settles, MachineState.polls, length,
    fresh.machineState, fresh.allocEvent, fresh.cepEvent, fresh.rxEvent]

/-- A device that is attached after a release meets the driver as it was at first,
exactly if the release finds the driver without remains of the device before. -/
theorem reattach_iff_fresh {k : StdDef} (cb : UserCb) (attr : k.attrIntr ≠ 0) (dir : k.dirMask ≠ 0)
    (past : List Input) (tdevAddr : Byte) :
    (driver k cb).Indistinguishable ((driver k cb).after .initial (past ++ [.release tdevAddr]))
      .initial ↔ Fresh ((driver k cb).after .initial past) := by
  rw [Reactive.after_append]
  constructor
  · exact fresh_of_indistinguishable attr dir
  · intro fresh
    exact indistinguishable_of_seen (seen_of_fresh fresh)

/-- A device that is taken away before it has been configured. -/
theorem reattach_unconfigured :
    (stdDef.attrIntr ≠ 0 ∧ stdDef.dirMask ≠ 0) ∧
      (driver stdDef hidUserCb).Indistinguishable
        ((driver stdDef hidUserCb).after .initial (attach stdDef ++ [.release 1])) .initial :=
  have constants : stdDef.attrIntr ≠ 0 ∧ stdDef.dirMask ≠ 0 := by decide
  ⟨constants, (reattach_iff_fresh hidUserCb constants.1 constants.2 (attach stdDef) 1).mpr
    ⟨rfl, rfl, rfl, rfl, rfl⟩⟩

/-- A device is unplugged while the driver polls it, and plugged in again: the pipe
to it is not configured. -/
theorem replugged_differs :
    let past := attach stdDef ++ configure ++ makeReady ++ [poll 100, poll 100]
    let later := attach stdDef ++ configure ++ makeReady ++ [poll 100]
    (driver stdDef hidUserCb).outputs .initial later ≠ (driver stdDef hidUserCb).outputs
      ((driver stdDef hidUserCb).after .initial (past ++ [.release 1])) later := by
  decide

/-- The driver has been brought where it is by some inputs, with these calls. -/
def Reached (k : StdDef) (cb : UserCb) (d : Driver) (calls : List Call) : Prop :=
  ∃ inputs, (driver k cb).after .initial inputs = d ∧ (driver k cb).outputs .initial inputs = calls

theorem Reached.react {k : StdDef} {cb : UserCb} {d : Driver} {calls : List Call}
    (h : Reached k cb d calls) (i : Input) :
    Reached k cb ((driver k cb).react d i).1 (calls ++ ((driver k cb).react d i).2) := by
  obtain ⟨inputs, rfl, rfl⟩ := h
  refine ⟨inputs ++ [i], Reactive.after_append _ _ _ _, ?_⟩
  rw [Reactive.outputs_append]
  simp only [Reactive.outputs, List.append_nil]

theorem Reached.quiet {k : StdDef} {cb : UserCb} {d : Driver} {calls : List Call}
    (h : Reached k cb d calls) (i : Input) (none : ((driver k cb).react d i).2 = []) :
    Reached k cb ((driver k cb).react d i).1 calls := by
  have next := h.react i
  rwa [none, List.append_nil] at next

/-- On the bus the driver does what it does on the inputs that reach it there. -/
theorem bus_reached {k : StdDef} {cb : UserCb} {events : List Event} {s : Bus}
    (hr : (bus k cb).run (bus k cb).initial events = some s) : Reached k cb s.driver s.calls := by
  refine Machine.invariant (I := fun s => Reached k cb s.driver s.calls) ?_ ⟨[], rfl, rfl⟩ hr
  intro s e t h hs
  cases e with
  | task env =>
    cases Option.some.inj hs
    rw [task_driver, task_calls]
    exact h.react (.task env)
  | release tdevAddr =>
    cases Option.some.inj hs
    exact h.react (.release tdevAddr)
  | rx status =>
    cases Option.some.inj hs
    exact h.react (.rx status)
  | allocate tdevAddr =>
    cases Option.some.inj hs
    exact h.quiet (.allocate tdevAddr) rfl
  | txComplete =>
    cases Option.some.inj hs
    exact h.quiet .txComplete rfl
  | write =>
    cases Option.some.inj hs
    exact h
  | cepDone xfr status =>
    obtain ⟨-, rfl⟩ := cepDone_cases hs
    exact h.quiet (.cepDone status) rfl
  | receive data =>
    obtain ⟨buffer, length, -, -, rfl⟩ := Bus.receive_cases hs
    exact h.quiet (.receive buffer data) rfl

end Reattach

end MultiZone.Usb
