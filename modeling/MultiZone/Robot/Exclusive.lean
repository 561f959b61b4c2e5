import MultiZone.Robot.Invariant

/-! The sequence, the manual key and the acknowledgement of a connection all
write commands, and the last two share one timer. -/
namespace MultiZone.Robot
open Transition Sequencer

/-- From the call of usb_write to the setting of the timer, except that the
acknowledgement has still to be called. -/
def Pc.writing : Pc → Bool
  | .usbWrite site => site ≠ .ack
  | .dataBuf _ _ | .getCepState _ | .testCep _ _ | .configurePipe _ | .startXfr _
  | .readMtime _ | .timerSet _ _ => true
  | _ => false

def Pc.setting : Pc → Bool
  | .start _ _ .sequence => true
  | _ => false

/-- A sequence is set only with the command timer disarmed, a connection is
acknowledged only with no sequence running, and no tick reads UINT64_MAX while
one is. -/
def Reserved : Point Pc Mem → Step → Prop :=
  onSteps
    (fun _ pc m => (pc.setting = true → m.timecmp .robotCmd = never) ∧
      (pc = .usbWrite .ack → m.vars.sequence = none))
    fun t _ m => m.vars.sequence ≠ none → t.time ≠ never

instance (p : Point Pc Mem) (a : Step) : Decidable (Reserved p a) :=
  inferInstanceAs (Decidable (onSteps _ _ p a))

structure Exclusive (pc : Pc) (m : Mem) : Prop where
  disarmed : m.vars.sequence ≠ none → m.timecmp .robotCmd = never
  own : ∀ w ∈ m.writes, ∀ cmd, w.current = some cmd → w.cmd = cmd
  writing : pc.writing = true → m.vars.sequence = none

theorem called_idle {m : Mem} (cmd : BitVec 32) (idle : m.vars.sequence = none) :
    (m.called cmd).writes = m.writes ++ [⟨cmd, none⟩] := by
  simp [Mem.called, owiSequenceIsRunning, idle]

theorem own_append {writes : List Write} {w : Write}
    (own : ∀ w ∈ writes, ∀ cmd, w.current = some cmd → w.cmd = cmd)
    (last : ∀ cmd, w.current = some cmd → w.cmd = cmd) :
    ∀ v ∈ writes ++ [w], ∀ cmd, v.current = some cmd → v.cmd = cmd := by
  intro v hv
  rcases List.mem_append.mp hv with hv | hv
  · exact own v hv
  · exact List.mem_singleton.mp hv ▸ last

theorem time_eq_never {t : Time} (h : t ≥ never) : t = never := by
  have max : never.toNat = 2 ^ 64 - 1 := rfl
  have le := UInt64.le_iff_toNat_le.mp h
  have lt := t.toNat_lt
  exact UInt64.toNat_inj.mp (by omega)

theorem leads_writing {i : Input} {m : Mem} {pc pc' : Pc} (h : Leads i m pc pc')
    (w : pc'.writing = true) :
    pc.writing = true ∨ pc = .usbWrite .ack ∨ m.manCmd ≠ cmdStop := by
  cases h with
  | usbWrite site =>
    cases site with
    | ack => exact .inr (.inl rfl)
    | key zone => exact .inl rfl
  | testKey zone set => exact .inr (.inr set)
  | _ => first | exact .inl rfl | cases w

theorem exclusive_statement {i : Input} {pc : Pc} {m : Mem} (h : Exclusive pc m)
    (invariant : Invariant pc m) (reserved : Reserved ⟨pc, m⟩ (.statement i)) :
    Exclusive (statement i pc m).pc (statement i pc m).mem := by
  have leads := statement_leads i pc m
  refine ⟨fun running => ?_, ?_, fun w => ?_⟩
  · rcases statement_sequence i pc m with seq | seq | ⟨zone, seq, rfl⟩
    · rw [seq] at running
      rcases statement_robotCmd i pc m with same | ⟨site, t, rfl⟩
      · exact same.trans (h.disarmed running)
      · exact absurd (h.writing rfl) running
    · exact absurd seq running
    · exact reserved.1 rfl
  · rcases statement_writes i pc m with same | ⟨site, rfl⟩
    · exact same ▸ h.own
    · have idle : m.vars.sequence = none := by
        cases site with
        | ack => exact reserved.2 rfl
        | key zone => exact h.writing rfl
      change ∀ w ∈ (m.called (site.cmd m)).writes, _
      rw [called_idle _ idle]
      exact own_append h.own nofun
  · have idle : m.vars.sequence = none := by
      rcases leads_writing leads w with before | rfl | set
      · exact h.writing before
      · exact reserved.2 rfl
      · exact invariant.alone set
    rcases statement_sequence i pc m with seq | seq | ⟨zone, seq, rfl⟩
    · exact seq.trans idle
    · exact seq
    · cases w

theorem exclusive_seqRun {t : Tick} {pc : Pc} {m m' : Mem} (hr : SeqRun t m m')
    (h : Exclusive pc m) : Exclusive pc m' := by
  have only := hr.sequencerOnly
  refine ⟨fun running => ?_, ?_, fun w => only.stays (h.writing w)⟩
  · exact only.robotCmd.trans (h.disarmed fun idle => running (only.stays idle))
  · cases hr with
    | skip | gone | ended => exact h.own
    | step r vars cmd ms due connected next more getCmd getMs =>
      rw [Mem.usbWrite_eq]
      refine own_append h.own fun c hc => ?_
      by_cases running : owiSequenceIsRunning vars = true
      · simpa [running, getCmd, Except.toOption] using hc
      · simp [running] at hc

theorem exclusive_cmdRun {t : Tick} {pc : Pc} {m m' : Mem} (hr : CmdRun t m m')
    (early : m.vars.sequence ≠ none → t.time ≠ never) (h : Exclusive pc m) :
    Exclusive pc m' := by
  rcases hr.cases_eq with rfl | ⟨due, rfl⟩
  · exact h
  · have idle : m.vars.sequence = none := by
      by_contra running
      rw [h.disarmed running] at due
      exact early running (time_eq_never due)
    refine ⟨fun running => absurd idle running, ?_, h.writing⟩
    change ∀ w ∈ (m.called cmdStop).writes, _
    rw [called_idle _ idle]
    exact own_append h.own nofun

theorem exclusive_tick {t : Tick} {pc : Pc} {m m' : Mem} (h : Exclusive pc m)
    (early : m.vars.sequence ≠ none → t.time ≠ never) (ht : timerHandler t m = .ok m') :
    Exclusive pc m' := by
  obtain ⟨m₁, m₂, host, seq, cmd⟩ := timerHandler_runs ht
  have usb := host.usbOnly
  have h₁ : Exclusive pc m₁ := by
    refine ⟨fun running => ?_, usb.writes ▸ h.own, fun w => ?_⟩
    · exact usb.robotCmd.trans (h.disarmed (usb.vars ▸ running))
    · rw [usb.vars]
      exact h.writing w
  refine exclusive_cmdRun cmd (fun running => early fun idle => running ?_)
    (exclusive_seqRun seq h₁)
  exact seq.sequencerOnly.stays (usb.vars ▸ idle)

theorem exclusive_outline : program.Outline
    (fun p a => Reserved p a ∧ Invariant p.pc p.mem) Exclusive :=
  outline_of_steps ⟨fun running => absurd rfl running, nofun, nofun⟩
    (fun _ _ _ h hc => exclusive_statement h hc.2 hc.1)
    (fun _ _ _ _ h hc => exclusive_tick h hc.1)
    fun _ _ _ h => ⟨h.disarmed, h.own, h.writing⟩

/-- Where every start and every acknowledgement finds the robot free, a running
sequence is never stopped by the command timer, and all that is written while it
runs is its current step. -/
theorem sequence_exclusive {steps : List Step} {p : Point Pc Mem}
    (reserved : program.machine.Obeys Reserved program.machine.initial steps)
    (hr : program.machine.run program.machine.initial steps = some p) :
    (owiSequenceIsRunning p.mem.vars = true → p.mem.timecmp .robotCmd = never) ∧
      ∀ w ∈ p.mem.writes, ∀ cmd, w.current = some cmd → w.cmd = cmd := by
  have h := (invariant_outline.strengthen fun _ _ _ => trivial).relative exclusive_outline
    |>.holds reserved hr |>.2
  refine ⟨fun running => h.disarmed ?_, h.own⟩
  simpa [owiSequenceIsRunning, Option.isSome_iff_ne_none] using running

/-- The acknowledgement is over when "start" is accepted. -/
def startAfterAck : List Step :=
  proceed 1 0 ++ [sysTick 1 [.classDriverAssigned]] ++ proceed 25 1 ++ [sysTick 300001 []] ++
    [receive .zone1 ['s', 't', 'a', 'r', 't']] ++ proceed 25 300002 ++ [sysTick 300003 []]

theorem startAfterAck_exclusive :
    ∃ p, program.machine.run program.machine.initial startAfterAck = some p ∧
      owiSequenceIsRunning p.mem.vars = true ∧
      ((owiSequenceIsRunning p.mem.vars = true → p.mem.timecmp .robotCmd = never) ∧
        ∀ w ∈ p.mem.writes, ∀ cmd, w.current = some cmd → w.cmd = cmd) :=
  have reserved : program.machine.Obeys Reserved program.machine.initial startAfterAck := by
    decide
  ⟨_, rfl, rfl, sequence_exclusive reserved rfl⟩

/-- "start" is accepted within 300 ms of the connection. -/
def startDuringAck : List Step :=
  proceed 1 0 ++ [sysTick 1 [.classDriverAssigned]] ++ proceed 25 1 ++
    [receive .zone1 ['s', 't', 'a', 'r', 't']] ++ proceed 25 2 ++ [sysTick 3 []]

theorem startDuringAck_interposes :
    ∃ p q, program.machine.run program.machine.initial startDuringAck = some p ∧
      owiSequenceIsRunning p.mem.vars = true ∧ p.mem.timecmp .robotCmd ≠ never ∧
      program.machine.step p (sysTick 300001 []) = some q ∧
      owiSequenceIsRunning q.mem.vars = true ∧ ⟨cmdStop, some 0x010001⟩ ∈ q.mem.writes :=
  ⟨_, _, rfl, rfl, by decide, rfl, rfl, by decide⟩

end MultiZone.Robot
