import MultiZone.Robot.Invariant

/-! A motor runs until a command without motor bits has been transmitted. The
command timer and the last step of a sequence see to that, unless usb_write
declines or the sequence is cut short. -/
namespace MultiZone.Robot
open Transition Sequencer

def Mem.Still (m : Mem) : Prop := m.sent.getD 0 &&& 0x00FFFF = 0

instance (m : Mem) : Decidable m.Still := inferInstanceAs (Decidable (_ = _))

def Ending (s : State) : Prop := s.sequence = none ∨ s.stop = true ∧ s.stepIdx = 0

instance (s : State) : Decidable (Ending s) := inferInstanceAs (Decidable (_ ∨ _))

def Pc.arming : Pc → Bool
  | .readMtime _ | .timerSet _ _ => true
  | _ => false

/-- A motor of the connected robot moves, and no timer is set to stop it. -/
def Moving (m : Mem) : Prop :=
  m.usbState = .connected ∧ m.timecmp .robotCmd = never ∧ ¬ m.Still

instance (m : Mem) : Decidable (Moving m) := inferInstanceAs (Decidable (_ ∧ _))

/-- The step that comes next is the first one again, and the sequence stops there. -/
def LastStep (s : State) : Prop :=
  (s.stepIdx + 1).tmod s.size = 0 ∧
    ∃ seq ∈ s.sequence, ∃ step ∈ (readStep (builtIn seq) 0).toOption,
      s.stop = true ∨ step.durationMs = 0

instance (s : State) : Decidable (LastStep s) := by
  unfold LastStep
  infer_instance

/-- The STOP at the end of a sequence is transmitted, if a motor moves. -/
def LastStepSent (t : Tick) (pc : Pc) (m : Mem) : Prop :=
  t.time ≥ m.timecmp .robotSeq → LastStep m.vars → t.seqCep.ready = true ∨ ¬ Moving m ∨
    pc.arming = true

/-- CMD_STOP is transmitted, unless no motor moves, a sequence goes on, or the
timer is about to be set anew. -/
def CmdStopSent (t : Tick) (pc : Pc) (m : Mem) : Prop :=
  t.time ≥ m.timecmp .robotCmd → m.usbState = .connected → Ending m.vars →
    t.cmdCep.ready = true ∨ m.Still ∨ pc.arming = true

/-- Both, each at the round of timer_handler that runs the task. -/
def TickStops (t : Tick) (pc : Pc) (m : Mem) : Prop :=
  match timerRound t m .usbHost with
  | .error _ => True
  | .ok m₁ => LastStepSent t pc m₁ ∧
    match timerRound t m₁ .robotSeq with
    | .error _ => True
    | .ok m₂ => CmdStopSent t pc m₂

instance (t : Tick) (pc : Pc) (m : Mem) : Decidable (TickStops t pc m) := by
  unfold TickStops LastStepSent CmdStopSent
  split
  · infer_instance
  · split <;> infer_instance

def Pc.deadline : Pc → Option Time
  | .timerSet _ t => some t
  | _ => none

def Pc.requesting : Pc → Bool
  | .stopReq _ => true
  | _ => false

/-- A stop request at the first step and owi_sequence_stop find no motor moving,
and no motor is to be stopped at UINT64_MAX. -/
def StatementStops (pc : Pc) (m : Mem) : Prop :=
  (pc.requesting = true → m.vars.stepIdx = 0 → ¬ Moving m) ∧
  (pc = .stop .sequence → ¬ Moving m) ∧
  (pc.deadline = some never → m.usbState = .connected → Ending m.vars → m.Still)

instance (pc : Pc) (m : Mem) : Decidable (StatementStops pc m) :=
  inferInstanceAs (Decidable (_ ∧ _ ∧ _))

def Stops : Point Pc Mem → Step → Prop := onSteps (fun _ => StatementStops) TickStops

instance (p : Point Pc Mem) (a : Step) : Decidable (Stops p a) :=
  inferInstanceAs (Decidable (onSteps _ _ p a))

/-- Neither the timer nor the sequencer nor the main loop will stop a motor. -/
structure Unattended (pc : Pc) (m : Mem) : Prop where
  connected : m.usbState = .connected
  disarmed : m.timecmp .robotCmd = never
  ending : Ending m.vars
  away : pc.arming = false

/-- A robot left to itself does not move. -/
def Safe (pc : Pc) (m : Mem) : Prop := Unattended pc m → m.Still

theorem still_of_not_moving {m : Mem} (connected : m.usbState = .connected)
    (disarmed : m.timecmp .robotCmd = never) (h : ¬ Moving m) : m.Still :=
  Decidable.not_not.mp fun moving => h ⟨connected, disarmed, moving⟩

theorem leads_arming {i : Input} {m : Mem} {pc pc' : Pc} (h : Leads i m pc pc')
    (away : pc'.arming = false) : pc.arming = false ∨ ∃ site t, pc = .timerSet site t := by
  cases h with
  | acknowledged t => exact .inr ⟨_, t, rfl⟩
  | issued zone t => exact .inr ⟨_, t, rfl⟩
  | _ => first | exact .inl rfl | cases away

theorem statement_ending {i : Input} {pc : Pc} {m : Mem} (invariant : Invariant pc m)
    (h : Ending (statement i pc m).mem.vars) : Ending m.vars ∨ pc = .stop .sequence ∨
      (∃ zone, pc = .stopReq zone) ∧ m.vars.stepIdx = 0 := by
  cases pc with
  | start zone seq p =>
    cases p with
    | sequence => exact .inl (.inl (invariant.free rfl))
    | stepIdx =>
      rcases h with idle | ⟨stop, -⟩
      · exact .inl (.inl idle)
      · exact .inl (.inr ⟨stop, invariant.cancelled rfl stop⟩)
    | stop =>
      rcases h with idle | ⟨stop, -⟩
      · exact .inl (.inl idle)
      · cases stop
    | test | size => exact .inl h
  | stop p =>
    cases p with
    | sequence => exact .inr (.inl rfl)
    | stepIdx | size | stop => exact .inl (.inl (invariant.stopping rfl))
  | stopReq zone =>
    rcases h with idle | ⟨-, first⟩
    · exact .inl (.inl idle)
    · exact .inr (.inr ⟨⟨zone, rfl⟩, first⟩)
  | _ => exact .inl h

theorem safe_statement {i : Input} {pc : Pc} {m : Mem} (h : Safe pc m)
    (invariant : Invariant pc m) (stops : StatementStops pc m) :
    Safe (statement i pc m).pc (statement i pc m).mem := by
  intro ⟨connected, disarmed, ending, away⟩
  rw [statement_usbState] at connected
  have sent : (statement i pc m).mem.sent = m.sent := by
    refine (statement_sent i pc m).resolve_right ?_
    rintro ⟨site, rfl⟩
    cases away
  change (statement i pc m).mem.sent.getD 0 &&& 0x00FFFF = 0
  rw [sent]
  rcases leads_arming (statement_leads i pc m) away with before | ⟨site, t, rfl⟩
  · have same : m.timecmp .robotCmd = never := by
      refine Eq.trans ?_ disarmed
      refine ((statement_robotCmd i pc m).resolve_right ?_).symm
      rintro ⟨site, t, rfl⟩
      cases before
    rcases statement_ending invariant ending with ended | rfl | ⟨⟨zone, rfl⟩, first⟩
    · exact h ⟨connected, same, ended, before⟩
    · exact still_of_not_moving connected same (stops.2.1 rfl)
    · exact still_of_not_moving connected same (stops.1 rfl first)
  -- the timer has just been set, so only the deadline UINT64_MAX leaves it disarmed
  · have last : t = never := by simpa [statement] using disarmed
    exact stops.2.2 (congrArg some last) connected ending

theorem safe_hostRun {t : Tick} {pc : Pc} {m m' : Mem} (hr : HostRun t m m')
    (h : Safe pc m) : Safe pc m' := by
  have usb := hr.usbOnly
  intro ⟨connected, disarmed, ending, away⟩
  change m'.sent.getD 0 &&& 0x00FFFF = 0
  rcases usb.connected connected with fresh | ⟨before, same⟩
  · rw [fresh]
    rfl
  · rw [same]
    exact h ⟨before, usb.robotCmd ▸ disarmed, usb.vars ▸ ending, away⟩

theorem first_still {seq : OwiSequence} {step : SequenceStep} (stop : Bool)
    (hstep : readStep (builtIn seq) 0 = .ok step) : lit stop step.command &&& 0x00FFFF = 0 := by
  have table : step.command = Cmd.stop := by
    cases seq <;> obtain rfl := Except.ok.inj hstep <;> rfl
  rw [table]
  cases stop <;> decide

theorem safe_seqRun {t : Tick} {pc : Pc} {m m' : Mem} (hr : SeqRun t m m')
    (sent : LastStepSent t pc m) (h : Safe pc m) : Safe pc m' := by
  intro ⟨connected, disarmed, ending, away⟩
  cases hr with
  | skip => exact h ⟨connected, disarmed, ending, away⟩
  | gone disconnected => exact absurd (disconnected.symm.trans connected) (by decide)
  | ended vars _ next => exact h ⟨connected, disarmed, (next_ended next).1, away⟩
  | step r vars cmd ms due _ next more getCmd getMs =>
    obtain ⟨seq, step, hseq, -, hstep, hr, rfl⟩ := next_step next more
    rw [Mem.usbWrite_eq] at connected disarmed ending ⊢
    obtain ⟨stop, first⟩ := ending.resolve_left (by simp [Mem.timerSet, Mem.called, hseq])
    obtain rfl : r = 0 := first
    have stop : (m.vars.stop || decide (step.durationMs = 0)) = true := stop
    change (if t.seqCep.ready then some cmd else m.sent).getD 0 &&& 0x00FFFF = 0
    cases ready : t.seqCep.ready with
    | true =>
      have hcmd : lit (m.vars.stop || decide (step.durationMs = 0)) step.command = cmd := by
        simpa [owiSequenceGetCmd, hseq, hstep, Except.map] using getCmd
      exact hcmd ▸ first_still _ hstep
    | false =>
      have last : LastStep m.vars := by
        refine ⟨hr.symm, seq, hseq, step, by simp [hstep, Except.toOption], ?_⟩
        simpa using stop
      rcases sent due last with transmitted | still | arming
      · exact absurd (ready.symm.trans transmitted) (by decide)
      · exact still_of_not_moving connected disarmed still
      · exact absurd (away.symm.trans arming) (by decide)

theorem safe_cmdRun {t : Tick} {pc : Pc} {m m' : Mem} (hr : CmdRun t m m')
    (sent : CmdStopSent t pc m) (h : Safe pc m) : Safe pc m' := by
  rcases hr.cases_eq with rfl | ⟨due, rfl⟩
  · exact h
  · rintro ⟨connected, -, ending, away⟩
    change (if t.cmdCep.ready then some cmdStop else m.sent).getD 0 &&& 0x00FFFF = 0
    cases ready : t.cmdCep.ready with
    | true => exact show cmdStop &&& 0x00FFFF = 0 by decide
    | false =>
      rcases sent due connected ending with transmitted | still | arming
      · exact absurd (ready.symm.trans transmitted) (by decide)
      · exact still
      · exact absurd (away.symm.trans arming) (by decide)

theorem safe_tick {t : Tick} {pc : Pc} {m m' : Mem} (h : Safe pc m) (stops : TickStops t pc m)
    (ht : timerHandler t m = .ok m') : Safe pc m' := by
  obtain ⟨m₁, m₂, host, seq, cmd⟩ := timerHandler_rounds ht
  simp only [TickStops, host, seq] at stops
  have h₁ := safe_hostRun (hostRun_of_round host) h
  have h₂ := safe_seqRun (seqRun_of_round seq) stops.1 h₁
  exact safe_cmdRun (cmdRun_of_round cmd) stops.2 h₂

theorem safe_outline : program.Outline
    (fun p a => Stops p a ∧ Invariant p.pc p.mem) Safe :=
  outline_of_steps (fun _ => rfl) (fun _ _ _ h hc => safe_statement h hc.2 hc.1)
    (fun _ _ _ _ h hc => safe_tick h hc.1)
    fun _ _ _ h left => h ⟨left.connected, left.disarmed, left.ending, left.away⟩

/-- Where the stop commands get through, a connected robot at rest at wfi has
been sent no motor command that still stands. -/
theorem no_runaway_motor {steps : List Step} {p : Point Pc Mem}
    (stops : program.machine.Obeys Stops program.machine.initial steps)
    (hr : program.machine.run program.machine.initial steps = some p) (wfi : p.pc = .wfi)
    (connected : p.mem.usbState = .connected)
    (idle : owiSequenceIsRunning p.mem.vars = false)
    (disarmed : p.mem.timecmp .robotCmd = never) :
    p.mem.sent.getD 0 &&& 0x00FFFF = 0 := by
  have safe := (invariant_outline.strengthen fun _ _ _ => trivial).relative safe_outline
    |>.holds stops hr |>.2
  have ended : p.mem.vars.sequence = none := by
    simpa [owiSequenceIsRunning] using idle
  exact safe ⟨connected, disarmed, .inl ended, by rw [wfi]; rfl⟩

/-- The key "q" closes the grip for MAN_CMD_TIME; the acknowledgement is over. -/
def gripClosed (cmdCep : CepState) : List Step :=
  proceed 1 0 ++ [sysTick 1 [.classDriverAssigned]] ++ proceed 25 1 ++ [sysTick 300001 []] ++
    [receive .zone1 ['q']] ++ proceed 28 300002 ++
    [.interrupt (.sysTick ⟨500002, [], 500002, .cepIdle, cmdCep⟩)]

theorem gripClosed_stops :
    ∃ p, program.machine.run program.machine.initial (gripClosed .cepIdle) = some p ∧
      p.pc = .wfi ∧ p.mem.usbState = .connected ∧ p.mem.sent.getD 0 &&& 0x00FFFF = 0 :=
  have stops : program.machine.Obeys Stops program.machine.initial (gripClosed .cepIdle) := by
    decide +kernel
  ⟨_, rfl, rfl, rfl, no_runaway_motor stops rfl rfl rfl rfl rfl⟩

/-- The control endpoint is busy when robot_cmd_task is to stop the grip. -/
theorem gripClosed_runs :
    ∃ p, program.machine.run program.machine.initial (gripClosed .other) = some p ∧
      p.pc = .wfi ∧ p.mem.usbState = .connected ∧ owiSequenceIsRunning p.mem.vars = false ∧
      p.mem.timecmp .robotCmd = never ∧ p.mem.sent = some 0x000001 :=
  ⟨_, rfl, rfl, rfl, rfl, rfl, rfl⟩

end MultiZone.Robot
