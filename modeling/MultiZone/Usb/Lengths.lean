import MultiZone.Usb.Descriptors

/-! The lengths of the transfers that the driver requests. Two of them are taken
from what the device has sent before. -/
namespace MultiZone.Usb
open Transition

/-- A transfer is no longer than the buffer it names. -/
def Call.Fits : Call → Prop
  | .startControlXfr _ buffer length => length.toNat ≤ buffer.size
  | .readInPipe _ _ _ buffer length => length.toNat ≤ buffer.size
  | _ => True

def AllFit (s : Bus) : Prop := ∀ c ∈ s.calls, c.Fits

section Calls

variable {k : StdDef} {cb : UserCb} {env : Env} {d : Driver}

theorem handle_fits : (∀ c ∈ (handle cb env d).2, c.Fits) ↔
    (d.machineState = .readData → d.inEp.maxpktsz.toNat ≤ 10) := by
  cases state : d.machineState with
  | readData => simp [handle, state, Call.Fits, Buffer.size]
  | waitReadData =>
    cases event : d.rxEvent <;> cases decode : cb.decode <;>
      simp [handle, state, event, decode, Call.Fits]
  | idle | poll | sendData | busy | getData | sync | error => simp [handle, state, Call.Fits]

theorem genTask_fits : (∀ c ∈ (genTask k cb env d).2, c.Fits) ↔
    (d.genState = .reqGetReportDesc → d.wItemLength.toNat ≤ 50) ∧
      (d.genState = .deviceReady → d.machineState = .readData →
        d.inEp.maxpktsz.toNat ≤ 10) := by
  cases state : d.genState with
  | deviceReady =>
    simp only [genTask, state, handle_fits, reduceCtorEq, false_implies, true_and, true_implies]
  | reqGetReportDesc => simp [genTask, state, Call.Fits, Buffer.size]
  | setConfig =>
    cases valid : cb.validConfig <;> simp [genTask, state, valid, Call.Fits, Buffer.size]
  | reqGetGenDesc | reqSetIdle | reqSetProtocol =>
    simp [genTask, state, Call.Fits, Buffer.size]
  | getClassDescr =>
    by_cases ready : env.tdevState = .address ∧ env.cepState = .cepIdle <;>
      simp [genTask, state, ready, Call.Fits, Buffer.size]
  | waitGetClassDescr | waitReqSetIdle =>
    by_cases event : d.cepEvent = 0 <;> cases ready : cb.tdevReady <;>
      simp [genTask, state, event, ready, Call.Fits]
  | idle | waitSetConfig | waitDevSettle | waitGetGenDesc | waitReqGetReportDesc
  | waitReqSetProtocol | deviceRetry | error => simp [genTask, state, Call.Fits]

theorem releaseCb_fits : ∀ c ∈ (releaseCb cb d).2, c.Fits := by
  cases released : cb.driverReleased <;> simp [releaseCb, released, Call.Fits]

theorem rxCb_fits (status : Byte) : ∀ c ∈ (rxCb k status d).2, c.Fits := by
  rcases rxCb_cases k status d with ⟨-, run⟩ | ⟨-, -, run⟩ | ⟨-, -, run⟩ <;> rw [run]
  · exact nofun
  · exact nofun
  · simp [Call.Fits]

end Calls

theorem allFit_append {s t : Bus} {calls : List Call} (fit : AllFit s)
    (eq : t.calls = s.calls ++ calls) : AllFit t ↔ ∀ c ∈ calls, c.Fits := by
  unfold AllFit at *
  rw [eq]
  constructor
  · intro all c hc
    exact all c (List.mem_append_right _ hc)
  · intro new c hc
    rcases List.mem_append.mp hc with old | recent
    · exact fit c old
    · exact new c recent

/-- The descriptors that devices return: any number of devices, one attached after the other. -/
structure Devices where
  confs : List Byte → Prop
  descs : List Byte → Prop

/-- A device sends its descriptor from the first byte on, up to where the transfer ends. -/
def Devices.Sends (D : Devices) (s : Bus) : Event → Prop
  | .receive data =>
    match s.request with
    | some (.genConfDesc, _) => ∃ c, D.confs c ∧ data <+: c
    | some (.genDesc, _) => ∃ c, D.descs c ∧ data <+: c
    | _ => True
  | _ => True

/-- The check of the endpoint can be passed. -/
def Devices.Accepted (D : Devices) (k : StdDef) : Prop :=
  (∃ c, D.confs c ∧ c.getD 30 0 &&& k.attrIntr ≠ 0) ∧
    ∃ c, D.confs c ∧ c.getD 29 0 &&& k.dirMask ≠ 0

/-- wMaxPacketSize, and the byte of the class descriptor that is taken for the report's length. -/
structure Devices.Small (D : Devices) : Prop where
  packet : ∀ c, D.confs c → (littleEndian (c.getD 31 0) (c.getD 32 0)).toNat ≤ 10
  report : ∀ c, D.descs c → (c.getD 8 0).toNat ≤ 50

section Bytes

/-- Every byte of the buffer is still clear, or it is one of a descriptor. -/
def From {n : Nat} (sent : List Byte → Prop) (buffer : Fin n → Byte) : Prop :=
  ∀ i, buffer i = 0 ∨ ∃ c, sent c ∧ buffer i = c.getD i.val 0

variable {n : Nat} {sent : List Byte → Prop} {buffer : Fin n → Byte}

theorem From.clear : From sent fun _ : Fin n => 0 := fun _ => .inl rfl

theorem From.fill (stored : From sent buffer) {data c : List Byte} (known : sent c)
    (begins : data <+: c) : From sent (fill buffer data) := by
  intro i
  unfold Usb.fill
  cases byte : data[i.val]? with
  | none => exact stored i
  | some b =>
    obtain ⟨tail, rfl⟩ := begins
    have inside := (List.getElem?_eq_some_iff.mp byte).1
    refine .inr ⟨data ++ tail, known, ?_⟩
    rw [List.getD_eq_getElem?_getD, List.getElem?_append_left inside, byte]
    rfl

theorem fill_inside {data : List Byte} {m : Nat} {i : Fin n} (inside : i.val < m) :
    fill buffer (data.take m) i = data.getD i.val (buffer i) := by
  rw [fill, List.getElem?_take_of_lt inside, List.getD_eq_getElem?_getD]

theorem fill_beyond {data : List Byte} {m : Nat} {i : Fin n} (outside : m ≤ i.val) :
    fill buffer (data.take m) i = buffer i := by
  rw [fill, List.getElem?_take_eq_none outside]
  rfl

theorem fill_nonzero {data : List Byte} {m : Nat} {i : Fin n} {mask : Byte} (inside : i.val < m)
    (set : data.getD i.val 0 &&& mask ≠ 0) :
    fill buffer (data.take m) i = data.getD i.val 0 := by
  rw [fill_inside inside]
  rw [List.getD_eq_getElem?_getD] at set ⊢
  rw [List.getD_eq_getElem?_getD]
  cases byte : data[i.val]? with
  | none => exact absurd (byte ▸ UInt8.zero_and) set
  | some b => rfl

end Bytes

/-- The states before a device has been accepted, and those that the task does not handle. -/
def GenState.unread : GenState → Bool
  | .idle | .getClassDescr | .waitGetClassDescr | .deviceRetry | .error => true
  | _ => false

section Task

variable {k : StdDef} {cb : UserCb} {env : Env} {d : Driver}

theorem genTask_takes (k : StdDef) (cb : UserCb) (env : Env) (d : Driver) :
    (d.confDesc 30 &&& k.attrIntr ≠ 0 ∧ d.confDesc 29 &&& k.dirMask ≠ 0 ∧
      (genTask k cb env d).1.inEp.maxpktsz = littleEndian (d.confDesc 31) (d.confDesc 32)) ∨
    ((genTask k cb env d).1.inEp = d.inEp ∧
      (d.genState.unread = true → (genTask k cb env d).1.genState.unread = true)) := by
  cases state : d.genState with
  | waitGetClassDescr =>
    by_cases event : d.cepEvent = 0
    · right
      simp [genTask, state, event, GenState.unread]
    · by_cases passes : d.confDesc 30 &&& k.attrIntr ≠ 0 ∧ d.confDesc 29 &&& k.dirMask ≠ 0
      · left
        rw [check_passes cb env state event passes.1 passes.2]
        exact ⟨passes.1, passes.2, rfl⟩
      · right
        rw [check_refuses cb env state event passes]
        exact ⟨rfl, fun _ => rfl⟩
  | deviceReady =>
    right
    rw [genTask, state]
    exact ⟨handle_kept.2, fun unread => absurd unread (by decide)⟩
  | idle => right; cases event : d.allocEvent <;> simp [genTask, state, event, GenState.unread]
  | getClassDescr =>
    right
    by_cases ready : env.tdevState = .address ∧ env.cepState = .cepIdle <;>
      simp [genTask, state, ready, GenState.unread]
  | waitSetConfig | waitGetGenDesc | waitReqGetReportDesc | waitReqSetIdle | waitReqSetProtocol =>
    right
    by_cases event : d.cepEvent = 0 <;> simp [genTask, state, event, GenState.unread]
  | waitDevSettle =>
    right
    by_cases settled : env.milis - d.waitMili > 60 <;>
      simp [genTask, state, settled, GenState.unread]
  | setConfig | reqGetGenDesc | reqGetReportDesc | reqSetIdle | reqSetProtocol | deviceRetry
  | error =>
    right
    simp [genTask, state, GenState.unread]

end Task

/-- What the enumeration carries along. Where no descriptor is accepted, the driver never gets
beyond the check; where one is, what is stored and what is taken from it is small. -/
structure Carried (k : StdDef) (D : Devices) (s : Bus) : Prop where
  conf : From D.confs s.driver.confDesc
  desc : From D.descs s.driver.genDesc
  tail : TailClear s
  packet : s.driver.inEp.maxpktsz.toNat ≤ 10
  unread : ¬ D.Accepted k → s.driver.genState.unread = true
  fit : AllFit s

section Runs

variable {k : StdDef} {cb : UserCb} {D : Devices} {s t : Bus}

theorem From.byte {n : Nat} {sent : List Byte → Prop} {buffer : Fin n → Byte}
    (stored : From sent buffer) {i : Fin n} {mask : Byte} (some' : buffer i &&& mask ≠ 0) :
    ∃ c, sent c ∧ c.getD i.val 0 &&& mask ≠ 0 := by
  rcases stored i with clear | ⟨c, known, same⟩
  · rw [clear] at some'
    exact absurd (UInt8.zero_and) some'
  · exact ⟨c, known, same ▸ some'⟩

theorem Carried.accepted (h : Carried k D s) (attr : s.driver.confDesc 30 &&& k.attrIntr ≠ 0)
    (dir : s.driver.confDesc 29 &&& k.dirMask ≠ 0) : D.Accepted k :=
  ⟨h.conf.byte attr, h.conf.byte dir⟩

theorem Devices.Small.stored_packet (small : D.Small) {confDesc : Fin 34 → Byte}
    (stored : From D.confs confDesc) :
    (littleEndian (confDesc 31) (confDesc 32)).toNat ≤ 10 := by
  have low : (confDesc 31).toNat ≤ 10 := by
    rcases stored 31 with clear | ⟨c, known, same⟩
    · rw [clear]
      decide
    · have bound := small.packet c known
      rw [littleEndian_toNat] at bound
      change confDesc 31 = c.getD 31 0 at same
      rw [same]
      omega
  have high : (confDesc 32).toNat = 0 := by
    rcases stored 32 with clear | ⟨c, known, same⟩
    · rw [clear]
      rfl
    · have bound := small.packet c known
      rw [littleEndian_toNat] at bound
      change confDesc 32 = c.getD 32 0 at same
      rw [same]
      omega
  rw [littleEndian_toNat]
  omega

theorem Carried.report (h : Carried k D s) (small : D.Small) : s.driver.wItemLength.toNat ≤ 50 := by
  have low : (s.driver.genDesc 8).toNat ≤ 50 := by
    rcases h.desc 8 with clear | ⟨c, known, same⟩
    · rw [clear]
      decide
    · rw [same]
      exact small.report c known
  rw [Driver.wItemLength, littleEndian_toNat, h.tail.tail]
  exact low

theorem carried_task (small : D.Accepted k → D.Small) (h : Carried k D s) (env : Env) :
    Carried k D (s.task k cb env) := by
  have fit : AllFit (s.task k cb env) := by
    apply (allFit_append h.fit (task_calls k cb env s)).mpr
    refine genTask_fits.mpr ⟨fun state => ?_, fun _ _ => h.packet⟩
    apply h.report
    apply small
    by_contra refused
    have unread := h.unread refused
    rw [state] at unread
    cases unread
  have desc : (s.task k cb env).driver.genDesc = s.driver.genDesc := by
    rw [task_driver, genTask_genDesc]
  have conf : From D.confs (s.task k cb env).driver.confDesc := by
    rw [task_driver, genTask_confDesc]
    split
    · exact From.clear
    · exact h.conf
  rcases genTask_takes k cb env s.driver with ⟨attr, dir, packet⟩ | ⟨inEp, unread⟩
  · have accepted := h.accepted attr dir
    refine ⟨conf, desc ▸ h.desc, task_clear env h.tail, ?_, fun no => absurd accepted no, fit⟩
    rw [task_driver, packet]
    exact (small accepted).stored_packet h.conf
  · refine ⟨conf, desc ▸ h.desc, task_clear env h.tail, ?_, ?_, fit⟩
    · rw [task_driver, inEp]
      exact h.packet
    · intro no
      rw [task_driver]
      exact unread (h.unread no)

theorem carried_receive {data : List Byte} (h : Carried k D s) (sends : D.Sends s (.receive data))
    (hs : s.receive data = some t) : Carried k D t := by
  have tail := receive_clear h.tail hs
  obtain ⟨buffer, length, request, -, rfl⟩ := Bus.receive_cases hs
  unfold Devices.Sends at sends
  dsimp only at sends
  rw [request] at sends
  cases buffer with
  | genConfDesc =>
    obtain ⟨c, known, begins⟩ := sends
    exact ⟨h.conf.fill known begins, h.desc, tail, h.packet, h.unread, h.fit⟩
  | genDesc =>
    obtain ⟨c, known, begins⟩ := sends
    exact ⟨h.conf, h.desc.fill known begins, tail, h.packet, h.unread, h.fit⟩
  | genReport | rxBuffer => exact ⟨h.conf, h.desc, tail, h.packet, h.unread, h.fit⟩

theorem carried_step {e : Event} (small : D.Accepted k → D.Small) (h : Carried k D s)
    (sends : D.Sends s e) (hs : (bus k cb).step s e = some t) : Carried k D t := by
  have tail := tailClear_step h.tail hs
  cases e with
  | task env =>
    cases Option.some.inj hs
    exact carried_task small h env
  | receive data => exact carried_receive h sends hs
  | release tdevAddr =>
    cases Option.some.inj hs
    exact ⟨From.clear, h.desc, tail, Nat.zero_le _, fun _ => rfl,
      (allFit_append h.fit rfl).mpr releaseCb_fits⟩
  | rx status =>
    cases Option.some.inj hs
    have fit : AllFit (s.perform (rxCb k status s.driver)) :=
      (allFit_append h.fit rfl).mpr (rxCb_fits status)
    rcases rxCb_cases k status s.driver with ⟨-, run⟩ | ⟨-, -, run⟩ | ⟨-, -, run⟩ <;>
      rw [run] at fit tail ⊢
    · exact ⟨h.conf, h.desc, tail, h.packet, h.unread, fit⟩
    · exact ⟨h.conf, h.desc, tail, h.packet, fun _ => rfl, fit⟩
    · exact ⟨h.conf, h.desc, tail, h.packet, h.unread, fit⟩
  | cepDone xfr status =>
    obtain ⟨-, rfl⟩ := cepDone_cases hs
    exact ⟨h.conf, h.desc, tail, h.packet, h.unread, h.fit⟩
  | allocate | write | txComplete =>
    cases Option.some.inj hs
    exact ⟨h.conf, h.desc, tail, h.packet, h.unread, h.fit⟩

end Runs

section Overflows

variable {k : StdDef} {cb : UserCb} {D : Devices}

theorem reaches_task (env : Env) (s : Bus) :
    (bus k cb).Reaches D.Sends s (s.task k cb env) :=
  ⟨[.task env], ⟨trivial, trivial⟩, rfl⟩

/-- A control transfer is completed: one of the application, which can be started at any time. -/
theorem reaches_complete (s : Bus) :
    (bus k cb).Reaches D.Sends s (s.begin.complete k s.started 1) := by
  have known : s.started ∈ s.begin.pending := List.mem_append_right _ List.mem_cons_self
  exact ⟨[.write, .cepDone s.started 1],
    .cons trivial rfl (.cons trivial (if_pos known) ⟨trivial, rfl⟩)⟩

theorem reaches_receive (cb : UserCb) {s : Bus} {buffer : Buffer} {length : UInt16}
    {data : List Byte}
    (request : s.request = some (buffer, length)) (sends : D.Sends s (.receive data))
    (short : data.length ≤ length.toNat ∧ data.length ≤ buffer.size) :
    (bus k cb).Reaches D.Sends s { s with driver := s.driver.receive buffer data } := by
  refine ⟨[.receive data], .cons sends ?_ ⟨trivial, rfl⟩⟩
  change s.receive data = _
  rw [Bus.receive, request, Option.bind_some]
  exact if_pos short

theorem reaches_leg {s : Bus} {env : Env} {d : Driver}
    (first : (genTask k cb env (cepDoneCb 1 s.driver)).1 = d) :
    ∃ t, (bus k cb).Reaches D.Sends s t ∧ t.driver = (genTask k cb env d).1 ∧
      ∀ c ∈ (genTask k cb env d).2, c ∈ t.calls := by
  subst d
  let done := s.begin.complete k s.started 1
  refine ⟨(done.task k cb env).task k cb env,
    (reaches_complete s).trans ((reaches_task env done).trans (reaches_task env _)), ?_, ?_⟩
  · rw [task_driver, task_driver]
    rfl
  · intro c asked
    rw [task_calls]
    apply List.mem_append_right
    rw [task_driver]
    exact asked

/-- The driver has asked for the configuration descriptor. -/
def asking (calls : List Call) (confDesc : Fin 34 → Byte) : Bus :=
  { Bus.initial with
    driver := { Driver.initial with
      genState := .waitGetClassDescr
      tdevAddr := 1
      confDesc := confDesc }
    calls := calls
    request := some (.genConfDesc, 34)
    started := 1
    pending := [0]
    own := some 0 }

theorem reaches_asking (cb : UserCb) : ∃ calls, (bus k cb).Reaches D.Sends (bus k cb).initial
    (asking calls fun _ => 0) :=
  ⟨_, [.allocate 1, call 0, call 0], ⟨trivial, trivial, trivial, trivial⟩, rfl⟩

theorem request_asking (calls : List Call) (confDesc : Fin 34 → Byte) :
    (asking calls confDesc).request = some (.genConfDesc, 34) := rfl

theorem reaches_conf {calls : List Call} {confDesc : Fin 34 → Byte} {c : List Byte}
    (known : D.confs c) (n : Nat) (short : n ≤ 34) :
    (bus k cb).Reaches D.Sends (asking calls confDesc) (asking calls (fill confDesc (c.take n))) := by
  have length : (c.take n).length ≤ 34 := (List.length_take_le n c).trans short
  have sends : D.Sends (asking calls confDesc) (.receive (c.take n)) :=
    ⟨c, known, List.take_prefix n c⟩
  exact reaches_receive cb (request_asking calls confDesc) sends ⟨length, length⟩

/-- Where the check can be passed, it can be passed with the packet size of any descriptor. -/
theorem reaches_checked (cb : UserCb) {c : List Byte} (accepted : D.Accepted k)
    (known : D.confs c) :
    ∃ calls confDesc, (bus k cb).Reaches D.Sends (bus k cb).initial (asking calls confDesc) ∧
      confDesc 30 &&& k.attrIntr ≠ 0 ∧ confDesc 29 &&& k.dirMask ≠ 0 ∧
      littleEndian (confDesc 31) (confDesc 32) = littleEndian (c.getD 31 0) (c.getD 32 0) := by
  obtain ⟨⟨c₁, known₁, attr⟩, c₂, known₂, dir⟩ := accepted
  obtain ⟨calls, first⟩ := reaches_asking cb (k := k) (D := D)
  let stored : Fin 34 → Byte :=
    fill (fill (fill (fun _ => 0) (c.take 34)) (c₁.take 31)) (c₂.take 30)
  have low : stored 31 = c.getD 31 0 := by
    simp only [stored]
    rw [fill_beyond (by decide), fill_beyond (by decide), fill_inside (by decide)]
    rfl
  have high : stored 32 = c.getD 32 0 := by
    simp only [stored]
    rw [fill_beyond (by decide), fill_beyond (by decide), fill_inside (by decide)]
    rfl
  refine ⟨calls, stored, first.trans ((reaches_conf known 34 (by decide)).trans
    ((reaches_conf known₁ 31 (by decide)).trans (reaches_conf known₂ 30 (by decide)))), ?_, ?_, ?_⟩
  · simp only [stored]
    rw [fill_beyond (by decide), fill_nonzero (by decide) attr]
    exact attr
  · simp only [stored]
    rw [fill_nonzero (by decide) dir]
    exact dir
  · rw [low, high]

theorem reaches_configured (cb : UserCb) {s : Bus} (state : s.driver.genState = .waitGetClassDescr)
    (attr : s.driver.confDesc 30 &&& k.attrIntr ≠ 0)
    (dir : s.driver.confDesc 29 &&& k.dirMask ≠ 0) :
    ∃ t, (bus k cb).Reaches D.Sends s t ∧ t.driver.genState = .waitGetGenDesc ∧
      t.driver.machineState = s.driver.machineState ∧ t.driver.genDesc = s.driver.genDesc ∧
      t.driver.inEp.maxpktsz = littleEndian (s.driver.confDesc 31) (s.driver.confDesc 32) ∧
      t.request = some (.genDesc, 9) := by
  let now : Env := ⟨.address, .cepIdle, 0⟩
  let later : Env := ⟨.address, .cepIdle, 100⟩
  have settled : (100 : UInt32) - 0 > 60 := by decide
  have raised : (cepDoneCb 1 s.driver).cepEvent ≠ 0 := (by decide : (1 : Byte) ≠ 0)
  obtain ⟨s₁, reach₁, driver₁, -⟩ := reaches_leg (D := D)
    (congrArg Prod.fst (check_passes (d := cepDoneCb 1 s.driver) cb now state raised attr dir))
  let done := s₁.begin.complete k s₁.started 1
  let s₂ := done.task k cb now
  let s₃ := s₂.task k cb later
  have driver₂ : s₂.driver = { s₁.driver with
      cepEvent := 0, waitMili := 0, genState := .waitDevSettle } := by
    rw [task_driver]
    change (genTask k cb now (cepDoneCb 1 s₁.driver)).1 = _
    rw [driver₁]
    rfl
  have driver₃ : s₃.driver = { s₂.driver with genState := .reqGetGenDesc } := by
    rw [task_driver, driver₂]
    exact if_pos settled
  have asks : requested (genTask k cb later s₃.driver).2 = some (.genDesc, 9) := by
    rw [driver₃]
    rfl
  refine ⟨s₃.task k cb later, reach₁.trans ((reaches_complete s₁).trans ((reaches_task now done).trans
    ((reaches_task later s₂).trans (reaches_task later s₃)))), ?_⟩
  rw [task_driver, task_request asks, driver₃, driver₂, driver₁]
  exact ⟨rfl, rfl, rfl, rfl, rfl⟩

/-- The driver asks for the report with the length that the class descriptor gives. -/
theorem reaches_report (cb : UserCb) {s : Bus} (state : s.driver.genState = .waitGetGenDesc) :
    ∃ t, (bus k cb).Reaches D.Sends s t ∧
      .startControlXfr (.getDescriptor .interface .report s.driver.wItemLength) .genReport
        s.driver.wItemLength ∈ t.calls := by
  let now : Env := ⟨.address, .cepIdle, 0⟩
  have first : (genTask k cb now (cepDoneCb 1 s.driver)).1 =
      { s.driver with cepEvent := 0, genState := .reqGetReportDesc } := by
    simp [genTask, cepDoneCb, state]
  obtain ⟨t, reach, -, asked⟩ := reaches_leg (D := D) first
  exact ⟨t, reach, asked _ (List.mem_cons_of_mem _ List.mem_cons_self)⟩

/-- The device is ready in the end, and is read in packets of the size that it gives. -/
theorem reaches_read (cb : UserCb) {s : Bus} (state : s.driver.genState = .waitGetGenDesc)
    (machine : s.driver.machineState = .idle) :
    ∃ t, (bus k cb).Reaches D.Sends s t ∧
      .readInPipe s.driver.tdevAddr s.driver.inEp.num s.driver.inEp.maxpktsz .rxBuffer
        s.driver.inEp.maxpktsz ∈ t.calls := by
  let now : Env := ⟨.address, .cepIdle, 0⟩
  have first : (genTask k cb now (cepDoneCb 1 s.driver)).1 =
      { s.driver with cepEvent := 0, genState := .reqGetReportDesc } := by
    simp [genTask, cepDoneCb, state]
  obtain ⟨s₁, reach₁, driver₁, -⟩ := reaches_leg (D := D) first
  have second : (genTask k cb now (cepDoneCb 1 s₁.driver)).1 =
      { s.driver with cepEvent := 0, genState := .reqSetIdle } := by
    rw [driver₁]
    rfl
  obtain ⟨s₂, reach₂, driver₂, -⟩ := reaches_leg (D := D) second
  have third : (genTask k cb now (cepDoneCb 1 s₂.driver)).1 =
      { s.driver with cepEvent := 0, genState := .deviceReady } := by
    rw [driver₂]
    rfl
  obtain ⟨s₃, reach₃, driver₃, -⟩ := reaches_leg (D := D) third
  refine ⟨s₃.task k cb now, reach₁.trans (reach₂.trans (reach₃.trans (reaches_task now s₃))), ?_⟩
  rw [task_calls, driver₃]
  apply List.mem_append_right
  simp [genTask, handle, machine]

theorem packet_overflows (cb : UserCb) {c : List Byte} (accepted : D.Accepted k) (known : D.confs c)
    (large : ¬ (littleEndian (c.getD 31 0) (c.getD 32 0)).toNat ≤ 10) :
    ∃ s, (bus k cb).Reaches D.Sends (bus k cb).initial s ∧ ¬ AllFit s := by
  obtain ⟨calls, confDesc, before, attr, dir, size⟩ := reaches_checked cb accepted known
  obtain ⟨s, configured, state, machine, -, packet, -⟩ :=
    reaches_configured cb (k := k) (D := D) (s := asking calls confDesc) rfl attr dir
  obtain ⟨t, read, call⟩ := reaches_read cb (k := k) (D := D) state machine
  refine ⟨t, before.trans (configured.trans read), fun fit => large ?_⟩
  have fits := fit _ call
  rw [← size]
  exact packet ▸ fits

theorem report_overflows (cb : UserCb) {c : List Byte} (accepted : D.Accepted k) (known : D.descs c)
    (large : ¬ (c.getD 8 0).toNat ≤ 50) :
    ∃ s, (bus k cb).Reaches D.Sends (bus k cb).initial s ∧ ¬ AllFit s := by
  obtain ⟨c₀, known₀, -⟩ := accepted.1
  obtain ⟨calls, confDesc, before, attr, dir, -⟩ := reaches_checked cb accepted known₀
  obtain ⟨s, configured, state, -, clear, -, request⟩ :=
    reaches_configured cb (k := k) (D := D) (s := asking calls confDesc) rfl attr dir
  have length : (c.take 9).length ≤ 9 := List.length_take_le 9 c
  have sends : D.Sends s (.receive (c.take 9)) := by
    simp only [Devices.Sends, request]
    exact ⟨c, known, List.take_prefix 9 c⟩
  have received := reaches_receive cb (k := k) request sends ⟨length, length.trans (by decide)⟩
  obtain ⟨t, reported, call⟩ := reaches_report cb (k := k) (D := D)
    (s := { s with driver := s.driver.receive .genDesc (c.take 9) }) state
  refine ⟨t, before.trans (configured.trans (received.trans reported)), fun fit => large ?_⟩
  have fits := fit _ call
  have low : (s.driver.receive .genDesc (c.take 9)).genDesc 8 = c.getD 8 0 := by
    change fill s.driver.genDesc (c.take 9) 8 = _
    rw [fill_inside (by decide), clear]
    rfl
  have high : (s.driver.receive .genDesc (c.take 9)).genDesc 9 = 0 := by
    change fill s.driver.genDesc (c.take 9) 9 = _
    rw [fill_beyond (by decide), clear]
    rfl
  have size : (s.driver.receive .genDesc (c.take 9)).wItemLength.toNat = (c.getD 8 0).toNat := by
    rw [Driver.wItemLength, littleEndian_toNat, low, high]
    rfl
  exact size ▸ fits

end Overflows

end MultiZone.Usb
