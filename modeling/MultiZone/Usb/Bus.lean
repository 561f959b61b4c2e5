import MultiZone.Usb.Driver
import MultiZone.Transition.Machine

/-! The driver among the events of the bus: calls of its task, its callbacks in any
order, answers of the device, and the application's own control transfers. -/
namespace MultiZone.Usb
open Transition

/-- The states that test g_usbh_gen_cep_event. -/
def GenState.waits : GenState → Bool
  | .waitGetClassDescr | .waitSetConfig | .waitGetGenDesc | .waitReqGetReportDesc
  | .waitReqSetIdle | .waitReqSetProtocol => true
  | _ => false

/-- The states in which the task starts a control transfer. -/
def GenState.requests (env : Env) : GenState → Bool
  | .getClassDescr => env.tdevState = .address ∧ env.cepState = .cepIdle
  | .setConfig | .reqGetGenDesc | .reqGetReportDesc | .reqSetIdle | .reqSetProtocol => true
  | _ => false

def requested (calls : List Call) : Option (Buffer × UInt16) :=
  calls.findSome? fun
    | .startControlXfr _ buffer length => some (buffer, length)
    | _ => none

/-- A state that the task has left, and whether the transfer started on entering
it had been completed successfully by then. -/
structure Leave where
  state : GenState
  succeeded : Bool
  deriving DecidableEq

/-- The driver, and as history its calls, the control transfers started on the
device and not completed yet, and which of them is the driver's present one. -/
structure Bus where
  driver : Driver
  calls : List Call
  request : Option (Buffer × UInt16)
  started : Nat
  pending : List Nat
  own : Option Nat
  succeeded : Bool
  left : List Leave

def Bus.initial : Bus := ⟨.initial, [], none, 0, [], none, false, []⟩

/-- `write`: usb_write has started a transfer of the application. -/
inductive Event where
  | task (env : Env)
  | allocate (tdevAddr : Byte)
  | release (tdevAddr : Byte)
  | write
  | cepDone (xfr : Nat) (status : Byte)
  | txComplete
  | rx (status : Byte)
  | receive (data : List Byte)

namespace Bus

def perform (s : Bus) (r : Driver × List Call) : Bus :=
  { s with driver := r.1, calls := s.calls ++ r.2 }

def begin (s : Bus) : Bus :=
  { s with started := s.started + 1, pending := s.pending ++ [s.started] }

def leave (s : Bus) (next : GenState) : List Leave :=
  if s.driver.genState.waits = true ∧ next ≠ s.driver.genState then
    s.left ++ [⟨s.driver.genState, s.succeeded⟩]
  else s.left

def task (k : StdDef) (cb : UserCb) (env : Env) (s : Bus) : Bus :=
  let r := genTask k cb env s.driver
  let t := { s.perform r with left := s.leave r.1.genState }
  match requested r.2 with
  | none => t
  | some request =>
    { t.begin with request := some request, own := some s.started, succeeded := false }

def complete (k : StdDef) (xfr : Nat) (status : Byte) (s : Bus) : Bus :=
  { s with
    driver := cepDoneCb status s.driver
    pending := s.pending.erase xfr
    succeeded := s.succeeded || (s.own = some xfr && k.nakTout &&& status = 0) }

/-- A device sends at most what has been requested. What would go beyond the end
of a buffer has no meaning in C. -/
def receive (data : List Byte) (s : Bus) : Option Bus :=
  s.request.bind fun (buffer, length) =>
    if data.length ≤ length.toNat ∧ data.length ≤ buffer.size then
      some { s with driver := s.driver.receive buffer data }
    else none

theorem receive_cases {s t : Bus} {data : List Byte} (hs : s.receive data = some t) :
    ∃ buffer length, s.request = some (buffer, length) ∧ data.length ≤ length.toNat ∧
      t = { s with driver := s.driver.receive buffer data } := by
  obtain ⟨⟨buffer, length⟩, request, stored⟩ := Option.bind_eq_some_iff.mp hs
  dsimp only at stored
  split at stored
  · rename_i fits
    exact ⟨buffer, length, request, fits.1, (Option.some.inj stored).symm⟩
  · cases stored

end Bus

def bus (k : StdDef) (cb : UserCb) : Machine Bus Event where
  initial := .initial
  step s
    | .task env => some (s.task k cb env)
    | .allocate tdevAddr => some { s with driver := allocateCb tdevAddr s.driver }
    | .release _ => some (s.perform (releaseCb cb s.driver))
    | .write => some s.begin
    | .cepDone xfr status => if xfr ∈ s.pending then some (s.complete k xfr status) else none
    | .txComplete => some { s with driver := txCompleteCb s.driver }
    | .rx status => some (s.perform (rxCb k status s.driver))
    | .receive data => s.receive data

theorem cepDone_cases {k : StdDef} {cb : UserCb} {s t : Bus} {xfr : Nat} {status : Byte}
    (hs : (bus k cb).step s (.cepDone xfr status) = some t) :
    xfr ∈ s.pending ∧ t = s.complete k xfr status := by
  simp only [bus] at hs
  split at hs
  · rename_i known
    exact ⟨known, (Option.some.inj hs).symm⟩
  · cases hs

theorem task_calls (k : StdDef) (cb : UserCb) (env : Env) (s : Bus) :
    (s.task k cb env).calls = s.calls ++ (genTask k cb env s.driver).2 := by
  unfold Bus.task
  dsimp only
  split <;> rfl

theorem task_driver (k : StdDef) (cb : UserCb) (env : Env) (s : Bus) :
    (s.task k cb env).driver = (genTask k cb env s.driver).1 := by
  unfold Bus.task
  dsimp only
  split <;> rfl

theorem task_request {k : StdDef} {cb : UserCb} {env : Env} {s : Bus} {request : Buffer × UInt16}
    (asks : requested (genTask k cb env s.driver).2 = some request) :
    (s.task k cb env).request = some request := by
  unfold Bus.task
  dsimp only
  rw [asks]

theorem rxCb_cases (k : StdDef) (status : Byte) (d : Driver) :
    (status = 0 ∧ rxCb k status d = ({ d with rxEvent := true }, [])) ∨
    (status ≠ 0 ∧ k.nakTout &&& status ≠ 0 ∧
      rxCb k status d = ({ d with genState := .deviceRetry }, [])) ∨
    (status ≠ 0 ∧ k.nakTout &&& status = 0 ∧ rxCb k status d = (d, [.assertFail])) := by
  unfold rxCb
  by_cases ok : status = 0
  · exact .inl ⟨ok, if_pos ok⟩
  · rw [if_neg ok]
    by_cases nak : k.nakTout &&& status = 0
    · exact .inr (.inr ⟨ok, nak, if_neg fun other => other nak⟩)
    · exact .inr (.inl ⟨ok, nak, if_pos nak⟩)

section Task

variable {k : StdDef} {cb : UserCb} {env : Env} {d : Driver}

theorem handle_genState : (handle cb env d).1.genState = d.genState := by
  unfold handle
  split
  · rfl
  · rfl
  · dsimp only
    split <;> rfl
  · split <;> rfl
  all_goals rfl

theorem handle_requested : requested (handle cb env d).2 = none := by
  unfold handle
  split
  · rfl
  · rfl
  · rfl
  · split
    · dsimp only
      split <;> rfl
    · rfl
  all_goals rfl

theorem checked_waits (d : Driver) (res : ErrCode) : (d.afterCheck res).genState.waits = false := by
  unfold Driver.afterCheck
  split <;> rfl

theorem genTask_cases (k : StdDef) (cb : UserCb) (env : Env) (d : Driver) :
    (d.genState.waits = true ∧ d.cepEvent = 0 ∧ genTask k cb env d = (d, [])) ∨
    (d.genState.waits = true ∧ d.cepEvent ≠ 0 ∧
      (genTask k cb env d).1.genState.waits = false ∧
      requested (genTask k cb env d).2 = none) ∨
    (d.genState.requests env = true ∧ d.genState.waits = false ∧
      (genTask k cb env d).1.genState.waits = true ∧
      (genTask k cb env d).1.cepEvent = d.cepEvent ∧
      (requested (genTask k cb env d).2).isSome = true) ∨
    (d.genState.waits = false ∧ (genTask k cb env d).1.genState.waits = false ∧
      requested (genTask k cb env d).2 = none) := by
  cases state : d.genState with
  | waitGetClassDescr =>
    by_cases event : d.cepEvent = 0
    · left
      simp [genTask, state, event, GenState.waits]
    · right; left
      rw [genTask, state]
      dsimp only
      rw [if_pos event]
      exact ⟨rfl, event, checked_waits _ _, rfl⟩
  | waitReqSetIdle =>
    by_cases event : d.cepEvent = 0
    · left
      simp [genTask, state, event, GenState.waits]
    · right; left
      cases ready : cb.tdevReady <;>
        simp [genTask, state, event, ready, GenState.waits, requested]
  | waitSetConfig | waitGetGenDesc | waitReqGetReportDesc | waitReqSetProtocol =>
    by_cases event : d.cepEvent = 0
    · left
      simp [genTask, state, event, GenState.waits]
    · right; left
      simp [genTask, state, event, GenState.waits, requested]
  | setConfig =>
    right; right; left
    cases valid : cb.validConfig <;>
      simp [genTask, state, valid, GenState.requests, GenState.waits, requested]
  | reqGetGenDesc | reqGetReportDesc | reqSetIdle | reqSetProtocol =>
    right; right; left
    simp [genTask, state, GenState.requests, GenState.waits, requested]
  | getClassDescr =>
    by_cases ready : env.tdevState = .address ∧ env.cepState = .cepIdle
    · right; right; left
      simp [genTask, state, ready, GenState.requests, GenState.waits, requested]
    · right; right; right
      simp [genTask, state, ready, GenState.waits, requested]
  | idle =>
    right; right; right
    cases event : d.allocEvent <;>
      simp [genTask, state, event, GenState.waits, requested]
  | waitDevSettle =>
    right; right; right
    by_cases settled : env.milis - d.waitMili > 60 <;>
      simp [genTask, state, settled, GenState.waits, requested]
  | deviceReady =>
    right; right; right
    rw [genTask, state]
    exact ⟨rfl, by rw [handle_genState, state]; rfl, handle_requested⟩
  | deviceRetry | error =>
    right; right; right
    rw [genTask, state]
    exact ⟨rfl, by rw [state]; rfl, rfl⟩

theorem check_passes (cb : UserCb) (env : Env) (state : d.genState = .waitGetClassDescr)
    (event : d.cepEvent ≠ 0)
    (attr : d.confDesc 30 &&& k.attrIntr ≠ 0) (dir : d.confDesc 29 &&& k.dirMask ≠ 0) :
    genTask k cb env d = ({ d with
      genState := .setConfig
      cepEvent := 0
      inEp := {
        num := d.confDesc 29 &&& 0x7f
        maxpktsz := littleEndian (d.confDesc 31) (d.confDesc 32)
        desclen := littleEndian (d.confDesc 25) (d.confDesc 26) } }, []) := by
  simp [genTask, state, event, validateClassDesc, Driver.afterCheck, extractTdevEpDesc, attr, dir]

theorem check_refuses (cb : UserCb) (env : Env) (state : d.genState = .waitGetClassDescr)
    (event : d.cepEvent ≠ 0)
    (refused : ¬ (d.confDesc 30 &&& k.attrIntr ≠ 0 ∧ d.confDesc 29 &&& k.dirMask ≠ 0)) :
    genTask k cb env d =
      ({ d with genState := .error, cepEvent := 0, errorCode := .wrongDescr }, []) := by
  by_cases attr : d.confDesc 30 &&& k.attrIntr = 0
  · simp [genTask, state, event, validateClassDesc, Driver.afterCheck, extractTdevEpDesc, attr]
  · have dir : d.confDesc 29 &&& k.dirMask = 0 := Decidable.not_not.mp fun dir => refused ⟨attr, dir⟩
    simp [genTask, state, event, validateClassDesc, Driver.afterCheck, extractTdevEpDesc, attr, dir]

theorem handle_kept : (handle cb env d).1.confDesc = d.confDesc ∧
    (handle cb env d).1.inEp = d.inEp := by
  unfold handle
  split
  · exact ⟨rfl, rfl⟩
  · exact ⟨rfl, rfl⟩
  · dsimp only
    split <;> exact ⟨rfl, rfl⟩
  · split <;> exact ⟨rfl, rfl⟩
  all_goals exact ⟨rfl, rfl⟩

/-- g_gen_conf_desc is cleared on the way to the class descriptor. -/
theorem genTask_confDesc (k : StdDef) (cb : UserCb) (env : Env) (d : Driver) :
    (genTask k cb env d).1.confDesc =
      if d.genState = .reqGetGenDesc then fun _ => 0 else d.confDesc := by
  cases state : d.genState with
  | waitGetClassDescr =>
    by_cases event : d.cepEvent = 0
    · simp [genTask, state, event]
    · by_cases passes : d.confDesc 30 &&& k.attrIntr ≠ 0 ∧ d.confDesc 29 &&& k.dirMask ≠ 0
      · rw [check_passes cb env state event passes.1 passes.2, if_neg (by decide)]
      · rw [check_refuses cb env state event passes, if_neg (by decide)]
  | deviceReady =>
    rw [genTask, state]
    exact handle_kept.1
  | idle => cases event : d.allocEvent <;> simp [genTask, state, event]
  | getClassDescr =>
    by_cases ready : env.tdevState = .address ∧ env.cepState = .cepIdle <;>
      simp [genTask, state, ready]
  | waitSetConfig | waitGetGenDesc | waitReqGetReportDesc | waitReqSetIdle | waitReqSetProtocol =>
    by_cases event : d.cepEvent = 0 <;> simp [genTask, state, event]
  | waitDevSettle =>
    by_cases settled : env.milis - d.waitMili > 60 <;> simp [genTask, state, settled]
  | setConfig | reqGetGenDesc | reqGetReportDesc | reqSetIdle | reqSetProtocol | deviceRetry
  | error => simp [genTask, state]

end Task

section Enumeration

/-- The constants of the USB standard, and a bit for the NAK timeout. -/
def stdDef : StdDef := ⟨0x03, 0x80, 0x08⟩

def call (milis : UInt32) : Event := .task ⟨.address, .cepIdle, milis⟩

/-- A device with one interrupt endpoint is enumerated and read. -/
def enumerate (confDesc genDesc : List Byte) : List Event :=
  [.allocate 1, call 0, call 0, .receive confDesc, .cepDone 0 1, call 0, call 0, .cepDone 1 1,
    call 0, call 100, call 100, .receive genDesc, .cepDone 2 1, call 100, call 100, .cepDone 3 1,
    call 100, call 100, .cepDone 4 1, call 100, call 100, call 100]

/-- A configuration descriptor whose endpoint takes packets of the given size. -/
def interruptIn (maxpktsz : Byte) : List Byte :=
  [9, 2, 34, 0, 1, 1, 0, 0x80, 50, 9, 4, 0, 0, 1, 0xff, 0, 0, 0, 9, 0x21, 0x11, 1, 0, 1, 0x22, 63, 0,
    7, 5, 0x81, 3, maxpktsz, 0, 10]

end Enumeration

end MultiZone.Usb
