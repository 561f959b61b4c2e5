import MultiZone.Usb.Lengths

/-! What takes the enumeration from one state to the next. One flag carries the
status of every control transfer of the device. -/
namespace MultiZone.Usb
open Transition

/-- The flag is clear when the driver starts a transfer; and while the driver waits
only the success of that transfer sets it. -/
def Unmixed (k : StdDef) (s : Bus) : Event → Prop
  | .task env => s.driver.genState.requests env = true → s.driver.cepEvent = 0
  | .cepDone xfr status => s.driver.genState.waits = true → status ≠ 0 →
      s.own = some xfr ∧ k.nakTout &&& status = 0
  | _ => True

instance (k : StdDef) (s : Bus) (e : Event) : Decidable (Unmixed k s e) :=
  match e with
  | .task _ => inferInstanceAs (Decidable (_ → _))
  | .cepDone _ _ => inferInstanceAs (Decidable (_ → _))
  | .allocate _ | .release _ | .write | .txComplete | .rx _ | .receive _ =>
    inferInstanceAs (Decidable True)

structure Genuine (s : Bus) : Prop where
  event : s.driver.genState.waits = true → s.driver.cepEvent ≠ 0 → s.succeeded = true
  left : ∀ l ∈ s.left, l.succeeded = true

section Steps

variable {k : StdDef} {cb : UserCb} {s : Bus}

/-- An event that leaves the waiting, the flag and the history alone. -/
theorem Genuine.frame {t : Bus} (h : Genuine s)
    (waits : t.driver.genState.waits = true → s.driver.genState.waits = true)
    (event : t.driver.cepEvent = s.driver.cepEvent) (succeeded : t.succeeded = s.succeeded)
    (left : t.left = s.left) : Genuine t := by
  constructor
  · intro waiting raised
    rw [succeeded]
    exact h.event (waits waiting) (event ▸ raised)
  · rw [left]
    exact h.left

theorem task_none {env : Env} (quiet : requested (genTask k cb env s.driver).2 = none) :
    s.task k cb env = { s.perform (genTask k cb env s.driver) with
      left := s.leave (genTask k cb env s.driver).1.genState } := by
  rw [Bus.task, quiet]

theorem task_some {env : Env}
    (started : (requested (genTask k cb env s.driver).2).isSome = true) :
    (s.task k cb env).driver = (genTask k cb env s.driver).1 ∧
      (s.task k cb env).left = s.leave (genTask k cb env s.driver).1.genState := by
  obtain ⟨request, hr⟩ := Option.isSome_iff_exists.mp started
  rw [Bus.task, hr]
  exact ⟨rfl, rfl⟩

theorem leave_elsewhere {next : GenState} (out : s.driver.genState.waits = false) :
    s.leave next = s.left := by
  rw [Bus.leave, if_neg (by simp [out])]

theorem leave_stays : s.leave s.driver.genState = s.left := by
  rw [Bus.leave, if_neg (by simp)]

theorem leave_succeeded {next : GenState} (left : ∀ l ∈ s.left, l.succeeded = true)
    (done : s.succeeded = true) : ∀ l ∈ s.leave next, l.succeeded = true := by
  unfold Bus.leave
  split
  · intro l hl
    rcases List.mem_append.mp hl with old | new
    · exact left l old
    · exact List.mem_singleton.mp new ▸ done
  · exact left

theorem genuine_task {env : Env} (h : Genuine s)
    (clear : s.driver.genState.requests env = true → s.driver.cepEvent = 0) :
    Genuine (s.task k cb env) := by
  rcases genTask_cases k cb env s.driver with ⟨-, -, same⟩ | ⟨waits, raised, out, quiet⟩ |
    ⟨requests, out, -, event, started⟩ | ⟨out, out', quiet⟩
  · have quiet : requested (genTask k cb env s.driver).2 = none := by rw [same]; rfl
    rw [task_none quiet, same]
    exact h.frame id rfl rfl leave_stays
  · rw [task_none quiet]
    refine ⟨fun waiting => ?_, leave_succeeded h.left (h.event waits raised)⟩
    change (genTask k cb env s.driver).1.genState.waits = true at waiting
    rw [out] at waiting
    cases waiting
  · obtain ⟨driver, left⟩ := task_some started
    constructor
    · intro _ raised
      rw [driver, event] at raised
      exact absurd (clear requests) raised
    · rw [left, leave_elsewhere out]
      exact h.left
  · rw [task_none quiet]
    refine ⟨fun waiting => ?_, ?_⟩
    · change (genTask k cb env s.driver).1.genState.waits = true at waiting
      rw [out'] at waiting
      cases waiting
    · change ∀ l ∈ s.leave _, _
      rw [leave_elsewhere out]
      exact h.left

theorem genuine_complete {xfr : Nat} {status : Byte} (h : Genuine s)
    (unmixed : Unmixed k s (.cepDone xfr status)) : Genuine (s.complete k xfr status) := by
  refine ⟨fun waiting raised => ?_, h.left⟩
  obtain ⟨own, success⟩ := unmixed waiting raised
  simp [Bus.complete, own, success]

theorem rxCb_waits {status : Byte} {d : Driver}
    (waits : (rxCb k status d).1.genState.waits = true) :
    d.genState.waits = true ∧ (rxCb k status d).1.cepEvent = d.cepEvent := by
  rcases rxCb_cases k status d with ⟨-, run⟩ | ⟨-, -, run⟩ | ⟨-, -, run⟩ <;> rw [run] at waits ⊢
  · exact ⟨waits, rfl⟩
  · cases waits
  · exact ⟨waits, rfl⟩

theorem receive_frame (d : Driver) (buffer : Buffer) (data : List Byte) :
    (d.receive buffer data).genState = d.genState ∧
      (d.receive buffer data).cepEvent = d.cepEvent := by
  cases buffer <;> exact ⟨rfl, rfl⟩

theorem genuine_step {t : Bus} {e : Event} (h : Genuine s) (unmixed : Unmixed k s e)
    (hs : (bus k cb).step s e = some t) : Genuine t := by
  cases e with
  | task env =>
    cases Option.some.inj hs
    exact genuine_task h unmixed
  | cepDone xfr status =>
    obtain ⟨-, rfl⟩ := cepDone_cases hs
    exact genuine_complete h unmixed
  | release tdevAddr =>
    cases Option.some.inj hs
    exact ⟨fun waiting => (by cases waiting), h.left⟩
  | rx status =>
    cases Option.some.inj hs
    refine ⟨fun waiting raised => ?_, h.left⟩
    obtain ⟨waits, event⟩ := rxCb_waits waiting
    exact h.event waits (event ▸ raised)
  | receive data =>
    obtain ⟨buffer, length, -, -, rfl⟩ := Bus.receive_cases hs
    obtain ⟨state, event⟩ := receive_frame s.driver buffer data
    exact h.frame (fun waiting => state ▸ waiting) event rfl rfl
  | allocate | write | txComplete =>
    cases Option.some.inj hs
    exact h.frame id rfl rfl rfl

end Steps

/-- Where the flag is clear at the start of each transfer and no other completion
sets it meanwhile, every state that waits is left on the success of its own. -/
theorem left_on_success {k : StdDef} {cb : UserCb} {events : List Event} {s : Bus}
    (unmixed : (bus k cb).Obeys (Unmixed k) (bus k cb).initial events)
    (hr : (bus k cb).run (bus k cb).initial events = some s) :
    ∀ l ∈ s.left, l.succeeded = true := by
  have start : Genuine .initial := by
    constructor
    · intro waiting
      cases waiting
    · intro l hl
      cases hl
  have genuine := Machine.invariant_of_obeys (I := Genuine)
    (fun _ _ _ h hc hs => genuine_step h hc hs) start unmixed hr
  exact genuine.left

/-- A whole enumeration with nothing in between. -/
theorem enumerate_succeeds :
    ∃ s, (bus stdDef hidUserCb).run (bus stdDef hidUserCb).initial
        (enumerate (interruptIn 8) [9, 0x21, 0x11, 1, 0, 1, 0x22, 63, 0]) = some s ∧
      s.left.map Leave.state = [.waitGetClassDescr, .waitSetConfig, .waitGetGenDesc,
        .waitReqGetReportDesc, .waitReqSetIdle] ∧ ∀ l ∈ s.left, l.succeeded = true :=
  have unmixed : (bus stdDef hidUserCb).Obeys (Unmixed stdDef) (bus stdDef hidUserCb).initial
      (enumerate (interruptIn 8) [9, 0x21, 0x11, 1, 0, 1, 0x22, 63, 0]) := by decide
  ⟨_, rfl, rfl, left_on_success unmixed rfl⟩

/-- A command of the application is written and acknowledged while the device
settles, and its status is still there when the driver asks for a descriptor. -/
def writeWhileSettling : List Event :=
  [.allocate 1, call 0, call 0, .receive (interruptIn 8), .cepDone 0 1, call 0, call 0,
    .cepDone 1 1, call 0, .write, .cepDone 2 1, call 100, call 100, call 100]

theorem writeWhileSettling_advances :
    ∃ s, (bus stdDef hidUserCb).run (bus stdDef hidUserCb).initial writeWhileSettling = some s ∧
      s.pending = [3] ∧ s.own = some 3 ∧ ⟨.waitGetGenDesc, false⟩ ∈ s.left :=
  ⟨_, rfl, rfl, rfl, by decide⟩

end MultiZone.Usb
