import MultiZone.Robot.UsbEvents

/-! A running sequence depends on robot_seq_task being armed; the task disarms
itself when the device is gone and leaves the sequence to the event branch. -/
namespace MultiZone.Robot
open Transition Sequencer

def Pc.starting : Pc → Bool
  | .start _ _ .size | .start _ _ .stepIdx | .start _ _ .stop | .seqTimerSet _ => true
  | _ => false

def stepDeadline (now : Time) (s : State) : Option Time :=
  s.sequence.bind fun seq =>
    (readStep (builtIn seq) ((s.stepIdx + 1).tmod s.size)).toOption.map fun step =>
      now + UInt64.ofInt (step.durationMs * 1000)

/-- usb_event is cleared when no sequence is running, or the device is connected
and robot_seq_task armed; and no step is due at UINT64_MAX. -/
def KeptAlive : Point Pc Mem → Step → Prop :=
  onSteps
    (fun _ pc m => pc = .clearEvent → m.vars.sequence = none ∨
      m.usbState = .connected ∧ m.timecmp .robotSeq ≠ never)
    fun t _ m => t.time ≥ m.timecmp .robotSeq → stepDeadline t.seqNow m.vars ≠ some never

instance (p : Point Pc Mem) (a : Step) : Decidable (KeptAlive p a) :=
  inferInstanceAs (Decidable (onSteps _ _ p a))

def Alive (pc : Pc) (m : Mem) : Prop :=
  pc.handling = false → m.usbEvent = false → m.vars.sequence ≠ none →
    m.usbState = .connected ∧ (m.timecmp .robotSeq ≠ never ∨ pc.starting = true)

theorem leads_starting {i : Input} {m : Mem} {pc pc' : Pc} (h : Leads i m pc pc')
    (s : pc.starting = true) : pc'.starting = true ∨ ∃ zone, pc = .seqTimerSet zone := by
  cases h with
  | seqTimerSet zone => exact .inr ⟨zone, rfl⟩
  | _ => first | exact .inl rfl | cases s

theorem alive_statement {i : Input} {pc : Pc} {m : Mem} (h : Alive pc m)
    (invariant : Invariant pc m) (kept : KeptAlive ⟨pc, m⟩ (.statement i)) :
    Alive (statement i pc m).pc (statement i pc m).mem := by
  intro out quiet running
  have leads := statement_leads i pc m
  rw [statement_usbState]
  rcases leads_handling leads out with before | rfl
  · rw [(statement_outside i m before).1] at quiet
    rcases statement_sequence i pc m with seq | seq | ⟨zone, seq, rfl⟩
    · rw [seq] at running
      obtain ⟨connected, armed⟩ := h before quiet running
      refine ⟨connected, ?_⟩
      rcases statement_robotSeq i pc m with same | ⟨zone, rfl⟩
      · rcases armed with armed | starting
        · exact .inl (same ▸ armed)
        · rcases leads_starting leads starting with next | ⟨zone, rfl⟩
          · exact .inr next
          · exact .inl (by simp [statement, never])
      · exact .inl (by simp [statement, never])
    · exact absurd seq running
    · exact ⟨invariant.admitted rfl quiet, .inr rfl⟩
  · obtain ⟨connected, armed⟩ := (kept rfl).resolve_left running
    exact ⟨connected, .inl armed⟩

theorem seqRun_armed {t : Tick} {m m' : Mem} (hr : SeqRun t m m')
    (kept : t.time ≥ m.timecmp .robotSeq → stepDeadline t.seqNow m.vars ≠ some never)
    (connected : m.usbState = .connected) :
    m' = m ∨ m'.vars.sequence = none ∨ m'.timecmp .robotSeq ≠ never := by
  cases hr with
  | skip => exact .inl rfl
  | gone disconnected => rw [disconnected] at connected; cases connected
  | ended vars _ next => exact .inr (.inl (next_ended next).2)
  | step r vars cmd ms due _ next more getCmd getMs =>
    obtain ⟨seq, step, hseq, -, hstep, hr, rfl⟩ := next_step next more
    have hms : step.durationMs = ms := by
      simpa [owiSequenceGetMs, hseq, hstep, Except.map] using getMs
    refine .inr (.inr fun disarmed => kept due ?_)
    rw [← disarmed]
    simp [stepDeadline, hseq, ← hr, hstep, hms, Except.toOption]

theorem alive_tick {t : Tick} {pc : Pc} {m m' : Mem} (h : Alive pc m)
    (kept : t.time ≥ m.timecmp .robotSeq → stepDeadline t.seqNow m.vars ≠ some never)
    (ht : timerHandler t m = .ok m') : Alive pc m' := by
  obtain ⟨m₁, m₂, host, seq, cmd⟩ := timerHandler_runs ht
  have usb := host.usbOnly
  have h₁ : Alive pc m₁ := by
    intro out quiet running
    obtain ⟨before, state, -⟩ := usb.quiet quiet
    rw [usb.vars] at running
    rw [state, usb.robotSeq]
    exact h out before running
  have h₂ : Alive pc m₂ := by
    intro out quiet running
    have only := seq.sequencerOnly
    have before : m₁.vars.sequence ≠ none := fun idle => running (only.stays idle)
    obtain ⟨connected, armed⟩ := h₁ out (only.usbEvent ▸ quiet) before
    refine ⟨only.usbState.trans connected, ?_⟩
    rcases seqRun_armed seq (usb.vars ▸ usb.robotSeq ▸ kept) connected with rfl | idle | armed'
    · exact armed
    · exact absurd idle running
    · exact .inl armed'
  rcases cmd.cases_eq with rfl | ⟨-, rfl⟩ <;> exact h₂

theorem alive_outline : program.Outline
    (fun p a => KeptAlive p a ∧ Invariant p.pc p.mem) Alive :=
  outline_of_steps (fun _ _ running => absurd rfl running)
    (fun _ _ _ h hc => alive_statement h hc.2 hc.1)
    (fun _ _ _ _ h hc => alive_tick h hc.1) fun _ _ _ h => h

/-- Where every event is cleared with the sequence supplied, a sequence running
at wfi is advanced by the next ticks or taken up by the event branch. -/
theorem sequence_not_stranded {steps : List Step} {p : Point Pc Mem}
    (kept : program.machine.Obeys KeptAlive program.machine.initial steps)
    (hr : program.machine.run program.machine.initial steps = some p) (wfi : p.pc = .wfi)
    (running : owiSequenceIsRunning p.mem.vars = true) :
    p.mem.timecmp .robotSeq ≠ never ∨ p.mem.usbEvent = true := by
  have alive := (invariant_outline.strengthen fun _ _ _ => trivial).relative alive_outline
    |>.holds kept hr |>.2
  cases quiet : p.mem.usbEvent with
  | true => exact .inr rfl
  | false =>
    have out : p.pc.handling = false := by rw [wfi]; rfl
    have started : p.mem.vars.sequence ≠ none := by
      simpa [owiSequenceIsRunning, Option.isSome_iff_ne_none] using running
    exact .inl ((alive out quiet started).2.resolve_right (by simp [wfi, Pc.starting]))

/-- The device connects, "start" is accepted, and the first step is issued. -/
def started : List Step :=
  proceed 1 0 ++ [sysTick 1 [.classDriverAssigned]] ++ proceed 25 1 ++
    [receive .zone1 ['s', 't', 'a', 'r', 't']] ++ proceed 25 2 ++ [sysTick 3 []]

theorem started_supplied :
    ∃ p, program.machine.run program.machine.initial started = some p ∧ p.pc = .wfi ∧
      p.mem.vars.sequence = some .main ∧
      (p.mem.timecmp .robotSeq ≠ never ∨ p.mem.usbEvent = true) :=
  have kept : program.machine.Obeys KeptAlive program.machine.initial started := by decide
  ⟨_, rfl, rfl, rfl, sequence_not_stranded kept rfl rfl rfl⟩

/-- "start" is accepted before the connection has been handled, and the device
disconnects while its connection is being acknowledged. -/
def unplugged : List Step :=
  proceed 2 0 ++ [sysTick 1 [.classDriverAssigned], receive .zone1 ['s', 't', 'a', 'r', 't']] ++
    proceed 32 1 ++ [sysTick 2 [.dettached]] ++ proceed 17 2

theorem unplugged_strands :
    ∃ p, program.machine.run program.machine.initial unplugged = some p ∧ p.pc = .wfi ∧
      owiSequenceIsRunning p.mem.vars = true ∧ p.mem.timecmp .robotSeq = never ∧
      p.mem.usbEvent = false :=
  ⟨_, rfl, rfl, rfl, rfl, rfl⟩

end MultiZone.Robot
