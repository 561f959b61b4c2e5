import MultiZone.Usb.Reattach
import MultiZone.Usb.Completions

/-! The states that the task does not handle. A reading that times out on NAKs
leads to one of them, and only a release leads out of it. -/
namespace MultiZone.Usb
open Transition

/-- The configuration descriptor that a device sends passes the check as far as it goes, and a data
completion is a success or a NAK timeout. -/
def Admitted (k : StdDef) (s : Bus) : Event → Prop
  | .receive data => s.request.map Prod.fst = some .genConfDesc →
      (∀ b ∈ data[29]?, b &&& k.dirMask ≠ 0) ∧ ∀ b ∈ data[30]?, b &&& k.attrIntr ≠ 0
  | .rx status => status = 0 ∨ k.nakTout &&& status ≠ 0
  | _ => True

instance (k : StdDef) (s : Bus) (e : Event) : Decidable (Admitted k s e) :=
  match e with
  | .receive _ => inferInstanceAs (Decidable (_ → _ ∧ _))
  | .rx _ => inferInstanceAs (Decidable (_ ∨ _))
  | .task _ | .allocate _ | .release _ | .write | .cepDone _ _ | .txComplete =>
    inferInstanceAs (Decidable True)

structure Watch where
  /-- The descriptor has been stored up to the last byte that is checked. -/
  stored : Bool
  /-- It has answered with NAKs, or has been checked before it was stored. -/
  failed : Bool

def Watch.next (k : StdDef) (s : Bus) (w : Watch) : Event → Watch
  | .task _ =>
    { stored := w.stored && s.driver.genState ≠ .reqGetGenDesc
      failed := w.failed ||
        (s.driver.genState = .waitGetClassDescr && s.driver.cepEvent ≠ 0 && !w.stored) }
  | .receive data =>
    match s.request with
    | some (.genConfDesc, _) => { w with stored := w.stored || 31 ≤ data.length }
    | _ => w
  | .rx status => { w with failed := w.failed || k.nakTout &&& status ≠ 0 }
  | .release _ => ⟨false, false⟩
  | _ => w

def watched (k : StdDef) (cb : UserCb) : Machine (Bus × Watch) Event :=
  (bus k cb).withHistory ⟨false, false⟩ (Watch.next k)

/-- The task is not called for a device that has failed. -/
def ReleasedFirst (p : Bus × Watch) : Event → Prop
  | .task _ => p.2.failed = false
  | _ => True

instance (p : Bus × Watch) (e : Event) : Decidable (ReleasedFirst p e) :=
  match e with
  | .task _ => inferInstanceAs (Decidable (p.2.failed = false))
  | .allocate _ | .release _ | .write | .cepDone _ _ | .txComplete | .rx _ | .receive _ =>
    inferInstanceAs (Decidable True)

section Asserts

variable {k : StdDef} {cb : UserCb} {env : Env} {d : Driver}

theorem handle_asserts : .assertFail ∉ (handle cb env d).2 := by
  cases state : d.machineState with
  | waitReadData =>
    cases event : d.rxEvent <;> cases decode : cb.decode <;>
      simp [handle, state, event, decode]
  | idle | readData | poll | sendData | busy | getData | sync | error => simp [handle, state]

theorem genTask_asserts : .assertFail ∈ (genTask k cb env d).2 ↔
    d.genState = .deviceRetry ∨ d.genState = .error := by
  cases state : d.genState with
  | deviceReady => simpa [genTask, state] using handle_asserts
  | setConfig => cases valid : cb.validConfig <;> simp [genTask, state, valid]
  | getClassDescr =>
    by_cases ready : env.tdevState = .address ∧ env.cepState = .cepIdle <;>
      simp [genTask, state, ready]
  | waitGetClassDescr | waitReqSetIdle =>
    by_cases event : d.cepEvent = 0 <;> cases ready : cb.tdevReady <;>
      simp [genTask, state, event, ready]
  | idle | waitSetConfig | waitDevSettle | reqGetGenDesc | waitGetGenDesc | reqGetReportDesc
  | waitReqGetReportDesc | reqSetIdle | reqSetProtocol | waitReqSetProtocol | deviceRetry | error =>
    simp [genTask, state]

theorem genTask_failed (k : StdDef) (cb : UserCb) (env : Env) (d : Driver) :
    ((genTask k cb env d).1.genState = .deviceRetry ∨ (genTask k cb env d).1.genState = .error) ↔
      (d.genState = .deviceRetry ∨ d.genState = .error) ∨
        (d.genState = .waitGetClassDescr ∧ d.cepEvent ≠ 0 ∧
          ¬ (d.confDesc 30 &&& k.attrIntr ≠ 0 ∧ d.confDesc 29 &&& k.dirMask ≠ 0)) := by
  cases state : d.genState with
  | deviceReady =>
    have same : (handle cb env d).1.genState = d.genState := handle_genState
    simp [genTask, state, same]
  | waitGetClassDescr =>
    by_cases event : d.cepEvent = 0
    · simp [genTask, state, event]
    · by_cases passes : d.confDesc 30 &&& k.attrIntr ≠ 0 ∧ d.confDesc 29 &&& k.dirMask ≠ 0
      · rw [check_passes cb env state event passes.1 passes.2]
        simp [passes]
      · rw [check_refuses cb env state event passes]
        simp [passes, event]
  | idle => cases event : d.allocEvent <;> simp [genTask, state, event]
  | getClassDescr =>
    by_cases ready : env.tdevState = .address ∧ env.cepState = .cepIdle <;>
      simp [genTask, state, ready]
  | waitSetConfig | waitGetGenDesc | waitReqGetReportDesc | waitReqSetIdle | waitReqSetProtocol =>
    by_cases event : d.cepEvent = 0 <;> simp [genTask, state, event]
  | waitDevSettle =>
    by_cases settled : env.milis - d.waitMili > 60 <;> simp [genTask, state, settled]
  | setConfig | reqGetGenDesc | reqGetReportDesc | reqSetIdle | reqSetProtocol | deviceRetry
  | error => simp [genTask, state]

end Asserts

section Runs

variable {k : StdDef} {cb : UserCb} {s t : Bus} {w : Watch} {e : Event} {events : List Event}

/-- What is remembered is true of the driver. -/
structure Tracks (k : StdDef) (s : Bus) (w : Watch) : Prop where
  failed : (s.driver.genState = .deviceRetry ∨ s.driver.genState = .error) ↔ w.failed = true
  passes : w.stored = true →
    s.driver.confDesc 30 &&& k.attrIntr ≠ 0 ∧ s.driver.confDesc 29 &&& k.dirMask ≠ 0
  clear : w.stored = false → s.driver.confDesc 30 = 0

/-- The check is passed exactly if the descriptor has been stored. -/
theorem Tracks.checked (h : Tracks k s w) :
    (s.driver.confDesc 30 &&& k.attrIntr ≠ 0 ∧ s.driver.confDesc 29 &&& k.dirMask ≠ 0) ↔
      w.stored = true := by
  refine ⟨fun passes => ?_, h.passes⟩
  by_contra early
  have zero := h.clear (Bool.eq_false_iff.mpr early)
  rw [zero] at passes
  exact passes.1 UInt8.zero_and

theorem task_tracks (h : Tracks k s w) (env : Env) :
    Tracks k (s.task k cb env) (w.next k s (.task env)) := by
  refine ⟨?_, ?_, ?_⟩
  · rw [task_driver, genTask_failed, h.failed, h.checked]
    simp [Watch.next, and_assoc]
  · intro stored
    simp only [Watch.next, Bool.and_eq_true, decide_eq_true_eq] at stored
    rw [task_driver, genTask_confDesc, if_neg stored.2]
    exact h.passes stored.1
  · intro early
    rw [task_driver, genTask_confDesc]
    split
    · rfl
    · rename_i other
      refine h.clear ?_
      simpa [Watch.next, other] using early

theorem fill_passes {n : Nat} {buffer : Fin n → Byte} {data : List Byte} {i : Fin n} {mask : Byte}
    (sent : ∀ b ∈ data[i.val]?, b &&& mask ≠ 0)
    (before : data.length ≤ i.val → buffer i &&& mask ≠ 0) : fill buffer data i &&& mask ≠ 0 := by
  unfold fill
  cases byte : data[i.val]? with
  | none => exact before (List.getElem?_eq_none_iff.mp byte)
  | some b => exact sent b byte

theorem receive_tracks {data : List Byte} (h : Tracks k s w)
    (admitted : Admitted k s (.receive data))
    (hs : s.receive data = some t) : Tracks k t (w.next k s (.receive data)) := by
  obtain ⟨buffer, length, request, -, rfl⟩ := Bus.receive_cases hs
  unfold Watch.next
  dsimp only
  rw [request]
  cases buffer with
  | genConfDesc =>
    obtain ⟨dir, attr⟩ := admitted (by rw [request]; rfl)
    refine ⟨h.failed, fun stored => ?_, fun early => ?_⟩
    · have before : data.length ≤ 30 → w.stored = true := by
        intro short
        simpa [Nat.not_le_of_lt (Nat.lt_succ_of_le short)] using stored
      exact ⟨fill_passes attr fun short => (h.passes (before short)).1,
        fill_passes dir fun short => (h.passes (before (Nat.le_succ_of_le short))).2⟩
    · simp only [Bool.or_eq_false_iff, decide_eq_false_iff_not, Nat.not_le] at early
      have unsent : data[30]? = none := List.getElem?_eq_none (Nat.le_of_lt_succ early.2)
      change (data[30]?).getD (s.driver.confDesc 30) = 0
      rw [unsent]
      exact h.clear early.1
  | genDesc | genReport | rxBuffer => exact ⟨h.failed, h.passes, h.clear⟩

theorem rx_tracks {status : Byte} (h : Tracks k s w)
    (admitted : status = 0 ∨ k.nakTout &&& status ≠ 0) :
    (rxCb k status s.driver).2 = [] ∧
      Tracks k (s.perform (rxCb k status s.driver)) (w.next k s (.rx status)) := by
  rcases rxCb_cases k status s.driver with ⟨ok, run⟩ | ⟨-, nak, run⟩ | ⟨bad, other, -⟩
  · have answered : w.next k s (.rx status) = w := by simp [Watch.next, ok]
    rw [run, answered]
    exact ⟨rfl, h.failed, h.passes, h.clear⟩
  · rw [run]
    exact ⟨rfl, by simp [Watch.next, nak, Bus.perform], h.passes, h.clear⟩
  · exact absurd (admitted.resolve_left bad) (not_not_intro other)

theorem step_tracks (h : Tracks k s w) (admitted : Admitted k s e)
    (hs : (bus k cb).step s e = some t) : Tracks k t (w.next k s e) ∧
      (.assertFail ∉ t.calls ↔ .assertFail ∉ s.calls ∧ ReleasedFirst (s, w) e) := by
  cases e with
  | task env =>
    cases Option.some.inj hs
    refine ⟨task_tracks h env, ?_⟩
    rw [task_calls, List.mem_append, not_or, genTask_asserts, h.failed, Bool.not_eq_true]
    rfl
  | rx status =>
    cases Option.some.inj hs
    obtain ⟨quiet, tracks⟩ := rx_tracks h admitted
    exact ⟨tracks, by simp [Bus.perform, quiet, ReleasedFirst]⟩
  | release tdevAddr =>
    cases Option.some.inj hs
    refine ⟨⟨by simp [Bus.perform, releaseCb, Watch.next], nofun, fun _ => rfl⟩, ?_⟩
    cases released : cb.driverReleased <;> simp [Bus.perform, releaseCb, released, ReleasedFirst]
  | cepDone xfr status =>
    obtain ⟨-, rfl⟩ := cepDone_cases hs
    exact ⟨⟨h.failed, h.passes, h.clear⟩, by simp [Bus.complete, ReleasedFirst]⟩
  | receive data =>
    refine ⟨receive_tracks h admitted hs, ?_⟩
    obtain ⟨buffer, length, -, -, rfl⟩ := Bus.receive_cases hs
    simp [ReleasedFirst]
  | allocate | write | txComplete =>
    cases Option.some.inj hs
    exact ⟨⟨h.failed, h.passes, h.clear⟩, by simp [Bus.begin, ReleasedFirst]⟩

theorem run_tracks (h : Tracks k s w) (admitted : (bus k cb).Obeys (Admitted k) s events)
    (hr : (bus k cb).run s events = some t) : .assertFail ∉ t.calls ↔
      .assertFail ∉ s.calls ∧ (watched k cb).Obeys ReleasedFirst (s, w) events := by
  induction events generalizing s w with
  | nil =>
    cases Option.some.inj hr
    exact (and_iff_left trivial).symm
  | cons e rest ih =>
    obtain ⟨s', hs, hrest⟩ := Machine.run_cons.mp hr
    have obeys := (Machine.obeys_cons hs).mp admitted
    obtain ⟨tracks, asserts⟩ := step_tracks h obeys.1 hs
    have watches : (watched k cb).step (s, w) e = some (s', w.next k s e) :=
      Machine.step_withHistory hs
    rw [ih tracks obeys.2 hrest, asserts, Machine.obeys_cons watches, and_assoc]

end Runs

/-- The task never comes to its ASSERT(0), exactly if it is never called for a device that has
answered with NAKs or was checked too early, and has not been released since. -/
theorem never_asserts_iff {k : StdDef} {cb : UserCb} {events : List Event} {s : Bus}
    (admitted : (bus k cb).Obeys (Admitted k) (bus k cb).initial events)
    (hr : (bus k cb).run (bus k cb).initial events = some s) :
    .assertFail ∉ s.calls ↔ (watched k cb).Obeys ReleasedFirst (watched k cb).initial events := by
  have start : Tracks k Bus.initial ⟨false, false⟩ := ⟨by decide, nofun, fun _ => rfl⟩
  have tracked := run_tracks start admitted hr
  rw [tracked]
  exact and_iff_right nofun

/-- A device is enumerated, read, and answers with NAKs until the time is up. -/
def readTimesOut : List Event :=
  enumerate (interruptIn 8) [9, 0x21, 0x11, 1, 0, 1, 0x22, 63, 0] ++ [.rx stdDef.nakTout]

theorem released_neverAsserts :
    ∃ s, (bus stdDef hidUserCb).run (bus stdDef hidUserCb).initial
        (readTimesOut ++ [.release 1, .allocate 1, call 200]) = some s ∧
      .assertFail ∉ s.calls := by
  have admitted : (bus stdDef hidUserCb).Obeys (Admitted stdDef) (bus stdDef hidUserCb).initial
      (readTimesOut ++ [.release 1, .allocate 1, call 200]) := by decide +kernel
  exact ⟨_, rfl, (never_asserts_iff admitted rfl).mpr (by decide +kernel)⟩

theorem retried_asserts :
    ∃ s, (bus stdDef hidUserCb).run (bus stdDef hidUserCb).initial (readTimesOut ++ [call 200]) =
        some s ∧
      (bus stdDef hidUserCb).Obeys (Admitted stdDef) (bus stdDef hidUserCb).initial
        (readTimesOut ++ [call 200]) ∧ .assertFail ∈ s.calls :=
  ⟨_, rfl, by decide +kernel, by decide +kernel⟩

end MultiZone.Usb
