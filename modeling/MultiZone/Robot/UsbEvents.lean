import MultiZone.Robot.Invariant

/-! The USB event flag: the callbacks raise it inside the SysTick, and the main
loop tests it, reads the state and clears it in three separate statements. -/
namespace MultiZone.Robot
open Transition Sequencer

/-- From the switch on usb_state to the clearing of usb_event. -/
def Pc.handling : Pc → Bool
  | .switchState | .announce _ _ | .stop _ | .clearEvent => true
  | .usbWrite site | .dataBuf site _ | .getCepState site | .testCep site _
  | .configurePipe site | .startXfr site | .readMtime site | .timerSet site _ =>
    site = .ack
  | _ => false

def Site.branch : Site → Option UsbState
  | .ack => some .connected
  | .key _ => none

/-- The branch of the switch a statement belongs to. -/
def Pc.branch : Pc → Option UsbState
  | .announce branch _ => some branch
  | .stop _ => some .disconnected
  | .usbWrite site | .dataBuf site _ | .getCepState site | .testCep site _
  | .configurePipe site | .startXfr site | .readMtime site | .timerSet site _ => site.branch
  | _ => none

structure Events (pc : Pc) (m : Mem) : Prop where
  seen : pc.handling = false → m.usbEvent = false → m.handled = m.usbState
  branch : ∀ state, pc.branch = some state → m.handled = state
  stopped : pc = .clearEvent ∨ pc.handling = false ∧ m.usbEvent = false →
    m.handled = .disconnected → m.vars.sequence = none

/-- usb_event is cleared while usb_state is still what the switch has read. -/
def ClearedUnchanged : Point Pc Mem → Step → Prop :=
  onSteps (fun _ pc m => pc = .clearEvent → m.usbState = m.handled) fun _ _ _ => True

instance (p : Point Pc Mem) (a : Step) : Decidable (ClearedUnchanged p a) :=
  inferInstanceAs (Decidable (onSteps _ _ p a))

section Flow

variable {i : Input} {m : Mem} {pc pc' : Pc}

theorem leads_handling (h : Leads i m pc pc') (out : pc'.handling = false) :
    pc.handling = false ∨ pc = .clearEvent := by
  cases h with
  | clearEvent => exact .inr rfl
  | _ => first | exact .inl rfl | exact .inl out

theorem leads_branch (h : Leads i m pc pc') {state : UsbState} (b : pc'.branch = some state) :
    pc.branch = some state ∨ pc = .switchState ∧ m.usbState = state := by
  cases h with
  | switchState => exact .inr ⟨rfl, Option.some.inj b⟩
  | _ => first | exact .inl b | cases b

theorem leads_clearEvent (h : Leads i m pc .clearEvent) :
    pc.branch = some .connected ∨ pc.stopping = true := by
  cases h with
  | acknowledged t => exact .inl rfl
  | stopStop => exact .inr rfl

end Flow

theorem statement_outside (i : Input) {pc : Pc} (m : Mem) (out : pc.handling = false) :
    (statement i pc m).mem.usbEvent = m.usbEvent ∧
      (statement i pc m).mem.handled = m.handled := by
  constructor
  · refine (statement_usbEvent i pc m).resolve_right ?_
    rintro rfl
    cases out
  · refine (statement_handled i pc m).resolve_right ?_
    rintro rfl
    cases out

theorem events_seen {i : Input} {pc : Pc} {m : Mem} (h : Events pc m)
    (unchanged : pc = .clearEvent → m.usbState = m.handled)
    (out : (statement i pc m).pc.handling = false)
    (quiet : (statement i pc m).mem.usbEvent = false) :
    (statement i pc m).mem.handled = (statement i pc m).mem.usbState := by
  rw [statement_usbState]
  rcases leads_handling (statement_leads i pc m) out with before | rfl
  · obtain ⟨event, handled⟩ := statement_outside i m before
    exact handled.trans (h.seen before (event ▸ quiet))
  · exact (unchanged rfl).symm

theorem events_branch {i : Input} {pc : Pc} {m : Mem} (h : Events pc m) {state : UsbState}
    (b : (statement i pc m).pc.branch = some state) :
    (statement i pc m).mem.handled = state := by
  rcases leads_branch (statement_leads i pc m) b with before | ⟨rfl, read⟩
  · refine ((statement_handled i pc m).resolve_right ?_).trans (h.branch state before)
    rintro rfl
    cases before
  · exact read

theorem events_stopped {i : Input} {pc : Pc} {m : Mem} (h : Events pc m)
    (invariant : Invariant pc m)
    (after : (statement i pc m).pc = .clearEvent ∨
      (statement i pc m).pc.handling = false ∧ (statement i pc m).mem.usbEvent = false)
    (disconnected : (statement i pc m).mem.handled = .disconnected) :
    (statement i pc m).mem.vars.sequence = none := by
  have leads := statement_leads i pc m
  rcases after with hpc | ⟨out, quiet⟩
  · rw [hpc] at leads
    rcases leads_clearEvent leads with acked | stopping
    · have handled : (statement i pc m).mem.handled = m.handled := by
        refine (statement_handled i pc m).resolve_right ?_
        rintro rfl
        cases acked
      rw [handled, h.branch .connected acked] at disconnected
      cases disconnected
    · rcases statement_sequence i pc m with seq | seq | ⟨zone, seq, rfl⟩
      · exact seq.trans (invariant.stopping stopping)
      · exact seq
      · cases stopping
  · rcases leads_handling leads out with before | rfl
    · obtain ⟨event, handled⟩ := statement_outside i m before
      rw [event] at quiet
      rw [handled] at disconnected
      rcases statement_sequence i pc m with seq | seq | ⟨zone, seq, rfl⟩
      · exact seq.trans (h.stopped (.inr ⟨before, quiet⟩) disconnected)
      · exact seq
      · have connected := invariant.admitted rfl quiet
        rw [← h.seen before quiet, disconnected] at connected
        cases connected
    · exact h.stopped (.inl rfl) disconnected

theorem events_tick {t : Tick} {pc : Pc} {m m' : Mem} (h : Events pc m)
    (ht : timerHandler t m = .ok m') : Events pc m' := by
  refine timerHandler_keeps (fun m m' hr h => ?_) (fun m m' hr h => ?_)
    (fun m m' hr h => ?_) ht h
  · have usb := hr.usbOnly
    refine ⟨fun out quiet => ?_, fun state b => usb.handled.trans (h.branch state b),
      fun after disconnected => ?_⟩
    · obtain ⟨before, state, -⟩ := usb.quiet quiet
      rw [usb.handled, state]
      exact h.seen out before
    · rw [usb.vars]
      refine h.stopped (after.imp_right fun ⟨out, quiet⟩ => ⟨out, (usb.quiet quiet).1⟩) ?_
      exact usb.handled ▸ disconnected
  · have seq := hr.sequencerOnly
    refine ⟨fun out quiet => ?_, fun state b => seq.handled.trans (h.branch state b),
      fun after disconnected => seq.stays ?_⟩
    · rw [seq.handled, seq.usbState]
      exact h.seen out (seq.usbEvent ▸ quiet)
    · rw [seq.usbEvent] at after
      exact h.stopped after (seq.handled ▸ disconnected)
  · rcases hr.cases_eq with rfl | ⟨-, rfl⟩
    · exact h
    · exact ⟨h.seen, h.branch, h.stopped⟩

theorem events_outline : program.Outline
    (fun p a => ClearedUnchanged p a ∧ Invariant p.pc p.mem) Events :=
  outline_of_steps ⟨fun _ _ => rfl, nofun, fun _ _ => rfl⟩
    (fun _ _ _ h hc => ⟨events_seen h hc.1, fun _ => events_branch h,
      events_stopped h hc.2⟩)
    (fun _ _ _ _ h _ => events_tick h)
    fun _ _ _ h => ⟨h.seen, h.branch, h.stopped⟩

/-- Where every event is cleared with the state unchanged, the main loop reaches
wfi without an event only when it has handled the state the device is in. -/
theorem events_not_lost {steps : List Step} {p : Point Pc Mem}
    (unchanged : program.machine.Obeys ClearedUnchanged program.machine.initial steps)
    (hr : program.machine.run program.machine.initial steps = some p) (wfi : p.pc = .wfi)
    (quiet : p.mem.usbEvent = false) :
    p.mem.handled = p.mem.usbState ∧
      (p.mem.usbState = .disconnected → p.mem.vars.sequence = none) := by
  have h := (invariant_outline.strengthen fun _ _ _ => trivial).relative events_outline
    |>.holds unchanged hr |>.2
  have out : p.pc.handling = false := by rw [wfi]; rfl
  have seen := h.seen out quiet
  exact ⟨seen, fun state => h.stopped (.inr ⟨out, quiet⟩) (seen.trans state)⟩

/-- The device connects and disconnects; each event is handled in its own pass. -/
def oneByOne : List Step :=
  proceed 1 0 ++ [sysTick 1 [.classDriverAssigned]] ++ proceed 25 1 ++
    [sysTick 2 [.dettached]] ++ proceed 22 2

theorem oneByOne_handled :
    ∃ p, program.machine.run program.machine.initial oneByOne = some p ∧ p.pc = .wfi ∧
      p.mem.usbEvent = false ∧ p.mem.handled = p.mem.usbState ∧
      (p.mem.usbState = .disconnected → p.mem.vars.sequence = none) :=
  have unchanged : program.machine.Obeys ClearedUnchanged program.machine.initial oneByOne := by
    decide
  ⟨_, rfl, rfl, rfl, events_not_lost unchanged rfl rfl rfl⟩

/-- The device disconnects while its connection is being acknowledged. -/
def whileHandled : List Step :=
  proceed 1 0 ++ [sysTick 1 [.classDriverAssigned]] ++ proceed 9 1 ++
    [sysTick 2 [.dettached]] ++ proceed 16 2

theorem whileHandled_lost :
    ∃ p, program.machine.run program.machine.initial whileHandled = some p ∧ p.pc = .wfi ∧
      p.mem.usbEvent = false ∧ p.mem.usbState = .disconnected ∧ p.mem.handled = .connected :=
  ⟨_, rfl, rfl, rfl, rfl, rfl⟩

end MultiZone.Robot
