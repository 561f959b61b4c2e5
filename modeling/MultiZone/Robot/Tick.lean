import MultiZone.Robot.Model

/-! What one SysTick can do, task by task. -/
namespace MultiZone.Robot
open Transition Sequencer

namespace Mem

@[simp] theorem timerSet_timecmp (m : Mem) (task : Task) (t : Time) :
    (m.timerSet task t).timecmp task = t := by
  simp [timerSet]

theorem usbWrite_eq (m : Mem) (cep : CepState) (cmd : BitVec 32) :
    m.usbWrite cep cmd = { m.called cmd with
      usbDataBuf := cmd
      sent := if cep.ready then some cmd else m.sent } := by
  unfold usbWrite
  cases hc : cep.ready <;> simp [startControlXfr, called]

end Mem

inductive HostRun (t : Tick) (m : Mem) : Mem → Prop where
  | skip : HostRun t m m
  | run : HostRun t m ((usbHostTask t m).1.timerSet .usbHost 0)

/-- robot_seq_task, when it is due: the device is gone, the sequence is at its
end, or its next step is issued. -/
inductive SeqRun (t : Tick) (m : Mem) : Mem → Prop where
  | skip : SeqRun t m m
  | gone (disconnected : m.usbState = .disconnected) : SeqRun t m (m.timerSet .robotSeq never)
  | ended (vars : State) (connected : m.usbState = .connected)
      (next : owiSequenceNext builtIn m.vars = .ok (-1, vars)) :
      SeqRun t m ({ m with vars := vars }.timerSet .robotSeq never)
  | step (r : Int) (vars : State) (cmd : BitVec 32) (ms : Int)
      (due : t.time ≥ m.timecmp .robotSeq) (connected : m.usbState = .connected)
      (next : owiSequenceNext builtIn m.vars = .ok (r, vars)) (more : r ≠ -1)
      (getCmd : owiSequenceGetCmd builtIn vars = .ok cmd)
      (getMs : owiSequenceGetMs builtIn vars = .ok ms) :
      SeqRun t m (({ m with vars := vars }.usbWrite t.seqCep cmd).timerSet .robotSeq
        (t.seqNow + UInt64.ofInt (ms * 1000)))

inductive CmdRun (t : Tick) (m : Mem) : Mem → Prop where
  | skip : CmdRun t m m
  | run (due : t.time ≥ m.timecmp .robotCmd) :
      CmdRun t m ((robotCmdTask t m).1.timerSet .robotCmd never)

theorem timerRound_ok {t : Tick} {m m' : Mem} {task : Task} (h : timerRound t m task = .ok m') :
    m' = m ∨ t.time ≥ m.timecmp task ∧
      ∃ r, runTask t m task = .ok r ∧ m' = r.1.timerSet task r.2 := by
  unfold timerRound at h
  split at h
  · rename_i due
    cases hr : runTask t m task with
    | error e => rw [hr] at h; cases h
    | ok r =>
      rw [hr] at h
      exact .inr ⟨due, r, rfl, (Except.ok.inj h).symm⟩
  · exact .inl (Except.ok.inj h).symm

theorem hostRun_of_round {t : Tick} {m m' : Mem} (h : timerRound t m .usbHost = .ok m') :
    HostRun t m m' := by
  rcases timerRound_ok h with rfl | ⟨-, r, hr, rfl⟩
  · exact .skip
  · obtain rfl := Except.ok.inj hr
    exact .run

theorem cmdRun_of_round {t : Tick} {m m' : Mem} (h : timerRound t m .robotCmd = .ok m') :
    CmdRun t m m' := by
  rcases timerRound_ok h with rfl | ⟨due, r, hr, rfl⟩
  · exact .skip
  · obtain rfl := Except.ok.inj hr
    exact .run due

theorem seqRun_of_round {t : Tick} {m m' : Mem} (h : timerRound t m .robotSeq = .ok m') :
    SeqRun t m m' := by
  rcases timerRound_ok h with rfl | ⟨due, r, hr, rfl⟩
  · exact .skip
  have hr : robotSeqTask t m = .ok r := hr
  unfold robotSeqTask at hr
  split at hr
  · rename_i disconnected
    obtain rfl := Except.ok.inj hr
    exact .gone disconnected
  · rename_i connected
    cases next : owiSequenceNext builtIn m.vars with
    | error e => rw [next] at hr; cases hr
    | ok n =>
      simp only [next, Except.bind] at hr
      split at hr
      · rename_i last
        obtain rfl := Except.ok.inj hr
        exact .ended n.2 connected (next.trans (by rw [← last]))
      · rename_i more
        obtain ⟨cmd, ms, getCmd, getMs⟩ := getters_ok next
        simp only [getCmd, getMs, Except.map] at hr
        obtain rfl := Except.ok.inj hr
        exact .step n.1 n.2 cmd ms due connected next more getCmd getMs

theorem timerHandler_rounds {t : Tick} {m m' : Mem} (h : timerHandler t m = .ok m') :
    ∃ m₁ m₂, timerRound t m .usbHost = .ok m₁ ∧ timerRound t m₁ .robotSeq = .ok m₂ ∧
      timerRound t m₂ .robotCmd = .ok m' := by
  simp only [timerHandler, List.foldlM_cons, List.foldlM_nil, bind, Except.bind] at h
  cases h₁ : timerRound t m .usbHost with
  | error e => rw [h₁] at h; cases h
  | ok m₁ =>
    simp only [h₁] at h
    cases h₂ : timerRound t m₁ .robotSeq with
    | error e => rw [h₂] at h; cases h
    | ok m₂ =>
      simp only [h₂] at h
      cases h₃ : timerRound t m₂ .robotCmd with
      | error e => rw [h₃] at h; cases h
      | ok m₃ =>
        simp only [h₃] at h
        obtain rfl := Except.ok.inj h
        exact ⟨m₁, m₂, rfl, h₂, h₃⟩

theorem timerHandler_runs {t : Tick} {m m' : Mem} (h : timerHandler t m = .ok m') :
    ∃ m₁ m₂, HostRun t m m₁ ∧ SeqRun t m₁ m₂ ∧ CmdRun t m₂ m' := by
  obtain ⟨m₁, m₂, host, seq, cmd⟩ := timerHandler_rounds h
  exact ⟨m₁, m₂, hostRun_of_round host, seqRun_of_round seq, cmdRun_of_round cmd⟩

theorem timerHandler_keeps {I : Mem → Prop} {t : Tick} {m m' : Mem}
    (host : ∀ m m', HostRun t m m' → I m → I m') (seq : ∀ m m', SeqRun t m m' → I m → I m')
    (cmd : ∀ m m', CmdRun t m m' → I m → I m') (h : timerHandler t m = .ok m') (hm : I m) :
    I m' := by
  obtain ⟨m₁, m₂, h₁, h₂, h₃⟩ := timerHandler_runs h
  exact cmd m₂ m' h₃ (seq m₁ m₂ h₂ (host m m₁ h₁ hm))

/-- What the USB callbacks leave alone, and what holds when they raise no event
or leave the device connected. -/
structure UsbOnly (m m' : Mem) : Prop where
  manCmd : m'.manCmd = m.manCmd
  vars : m'.vars = m.vars
  handled : m'.handled = m.handled
  writes : m'.writes = m.writes
  robotSeq : m'.timecmp .robotSeq = m.timecmp .robotSeq
  robotCmd : m'.timecmp .robotCmd = m.timecmp .robotCmd
  quiet : m'.usbEvent = false →
    m.usbEvent = false ∧ m'.usbState = m.usbState ∧ m'.sent = m.sent
  connected : m'.usbState = .connected →
    m'.sent = none ∨ m.usbState = .connected ∧ m'.sent = m.sent

theorem UsbOnly.refl (m : Mem) : UsbOnly m m where
  manCmd := rfl
  vars := rfl
  handled := rfl
  writes := rfl
  robotSeq := rfl
  robotCmd := rfl
  quiet h := ⟨h, rfl, rfl⟩
  connected h := .inr ⟨h, rfl⟩

theorem UsbOnly.trans {m m' m'' : Mem} (h : UsbOnly m m') (h' : UsbOnly m' m'') :
    UsbOnly m m'' where
  manCmd := h'.manCmd.trans h.manCmd
  vars := h'.vars.trans h.vars
  handled := h'.handled.trans h.handled
  writes := h'.writes.trans h.writes
  robotSeq := h'.robotSeq.trans h.robotSeq
  robotCmd := h'.robotCmd.trans h.robotCmd
  quiet q := by
    obtain ⟨q', state', sent'⟩ := h'.quiet q
    obtain ⟨q, state, sent⟩ := h.quiet q'
    exact ⟨q, state'.trans state, sent'.trans sent⟩
  connected c := by
    rcases h'.connected c with fresh | ⟨c', sent'⟩
    · exact .inl fresh
    · exact (h.connected c').imp (sent'.trans ·) fun ⟨c, sent⟩ => ⟨c, sent'.trans sent⟩

theorem callback_usbOnly (m : Mem) (c : Callback) : UsbOnly m (c.run m) := by
  cases c with
  | classDriverAssigned =>
    refine ⟨rfl, rfl, rfl, rfl, rfl, rfl, fun q => absurd q (by simp [Callback.run,
      Mem.classDriverAssigned]), fun _ => ?_⟩
    by_cases h : m.usbState = .connected <;> simp [Callback.run, Mem.classDriverAssigned, h]
  | dettached =>
    refine ⟨rfl, rfl, rfl, rfl, rfl, rfl, fun q => ?_, fun c => by cases c⟩
    cases h : m.usbState with
    | connected => simp [Callback.run, Mem.dettached, h] at q
    | disconnected => simpa [Callback.run, Mem.dettached, h] using q

theorem HostRun.usbOnly {t : Tick} {m m' : Mem} (h : HostRun t m m') : UsbOnly m m' := by
  cases h with
  | skip => exact .refl m
  | run =>
    have callbacks : ∀ cs : List Callback, ∀ m, UsbOnly m (cs.foldl Callback.run m) := by
      intro cs
      induction cs with
      | nil => exact .refl
      | cons c cs ih => exact fun m => (callback_usbOnly m c).trans (ih (c.run m))
    obtain ⟨h₁, h₂, h₃, h₄, h₅, h₆, h₇, h₈⟩ := callbacks t.callbacks m
    exact ⟨h₁, h₂, h₃, h₄, h₅, h₆, h₇, h₈⟩

structure SequencerOnly (m m' : Mem) : Prop where
  manCmd : m'.manCmd = m.manCmd
  usbState : m'.usbState = m.usbState
  usbEvent : m'.usbEvent = m.usbEvent
  handled : m'.handled = m.handled
  robotCmd : m'.timecmp .robotCmd = m.timecmp .robotCmd
  sequence : m'.vars.sequence = none ∨ m'.vars.sequence = m.vars.sequence

theorem SequencerOnly.stays {m m' : Mem} (h : SequencerOnly m m')
    (idle : m.vars.sequence = none) : m'.vars.sequence = none :=
  h.sequence.elim id fun same => same.trans idle

theorem SeqRun.vars_cases {t : Tick} {m m' : Mem} (h : SeqRun t m m') :
    m'.vars = m.vars ∨
    (m.vars.stop = true ∧ m.vars.stepIdx = 0) ∧ m'.vars = { m.vars with sequence := none } ∨
    ∃ seq step r, m.vars.sequence = some seq ∧ ¬ (m.vars.stop = true ∧ m.vars.stepIdx = 0) ∧
      readStep (builtIn seq) r = .ok step ∧ m'.vars = { m.vars with
        stepIdx := r
        stop := m.vars.stop || decide (step.durationMs = 0) } := by
  cases h with
  | skip | gone => exact .inl rfl
  | ended vars connected next =>
    rcases next_cases next with ⟨-, -, same⟩ | ⟨last, -, finished⟩ |
      ⟨seq, step, hseq, running, -, hstep, -, moved⟩
    · exact .inl same
    · exact .inr (.inl ⟨last, finished⟩)
    · exact .inr (.inr ⟨seq, step, -1, hseq, running, hstep, moved⟩)
  | step r vars cmd ms due connected next more getCmd getMs =>
    obtain ⟨seq, step, hseq, running, hstep, -, moved⟩ := next_step next more
    rw [Mem.usbWrite_eq]
    exact .inr (.inr ⟨seq, step, r, hseq, running, hstep, moved⟩)

theorem SeqRun.sequencerOnly {t : Tick} {m m' : Mem} (h : SeqRun t m m') :
    SequencerOnly m m' := by
  have sequence : m'.vars.sequence = none ∨ m'.vars.sequence = m.vars.sequence := by
    rcases h.vars_cases with same | ⟨-, finished⟩ | ⟨seq, step, r, -, -, -, moved⟩
    · exact .inr (congrArg State.sequence same)
    · exact .inl (by rw [finished])
    · exact .inr (by rw [moved])
  cases h with
  | skip | gone | ended => exact ⟨rfl, rfl, rfl, rfl, rfl, sequence⟩
  | step r vars cmd ms due connected next more getCmd getMs =>
    rw [Mem.usbWrite_eq] at sequence ⊢
    exact ⟨rfl, rfl, rfl, rfl, rfl, sequence⟩

theorem CmdRun.cases_eq {t : Tick} {m m' : Mem} (h : CmdRun t m m') :
    m' = m ∨ t.time ≥ m.timecmp .robotCmd ∧
      m' = { (m.called cmdStop).timerSet .robotCmd never with
        manCmd := cmdStop
        usbDataBuf := cmdStop
        sent := if t.cmdCep.ready then some cmdStop else m.sent } := by
  cases h with
  | skip => exact .inl rfl
  | run due =>
    refine .inr ⟨due, ?_⟩
    rw [robotCmdTask, Mem.usbWrite_eq]
    rfl

theorem interrupt_sysTick {t : Tick} (pc : Pc) {m m' : Mem}
    (h : interrupt (.sysTick t) pc m = some m') : timerHandler t m = .ok m' := by
  simp only [interrupt] at h
  cases ht : timerHandler t m with
  | error e => rw [ht] at h; cases h
  | ok m'' =>
    rw [ht] at h
    exact congrArg Except.ok (Option.some.inj h)

theorem interrupt_software {recv : Zone → Option Message} (pc : Pc) {m m' : Mem}
    (h : interrupt (.software recv) pc m = some m') :
    ∃ inbox, m' = { m with inbox := inbox } := by
  simp only [interrupt] at h
  split at h
  · cases h
  · exact ⟨_, (Option.some.inj h).symm⟩

/-- A condition on the statements and on the ticks; messages arrive at any time. -/
def onSteps (statement : Input → Pc → Mem → Prop) (tick : Tick → Pc → Mem → Prop)
    (p : Point Pc Mem) : Step → Prop
  | .statement i => statement i p.pc p.mem
  | .interrupt (.sysTick t) => tick t p.pc p.mem
  | .interrupt (.software _) => True

instance (statement : Input → Pc → Mem → Prop) (tick : Tick → Pc → Mem → Prop)
    [∀ i pc m, Decidable (statement i pc m)] [∀ t pc m, Decidable (tick t pc m)]
    (p : Point Pc Mem) (a : Step) : Decidable (onSteps statement tick p a) :=
  match a with
  | .statement i => inferInstanceAs (Decidable (statement i p.pc p.mem))
  | .interrupt (.sysTick t) => inferInstanceAs (Decidable (tick t p.pc p.mem))
  | .interrupt (.software _) => inferInstanceAs (Decidable True)

/-- An outline of the application from its statements, its SysTick and an inbox
that may change at any time. -/
theorem outline_of_steps {C : Point Pc Mem → Step → Prop} {At : Pc → Mem → Prop}
    (enter : At .init .initial)
    (advance : ∀ i pc m, At pc m → C ⟨pc, m⟩ (.statement i) →
      At (statement i pc m).pc (statement i pc m).mem)
    (tick : ∀ t pc m m', At pc m → C ⟨pc, m⟩ (.interrupt (.sysTick t)) →
      timerHandler t m = .ok m' → At pc m')
    (inbox : ∀ pc m inbox, At pc m → At pc { m with inbox := inbox }) :
    program.Outline C At where
  enter := enter
  advance i pc m next h hc hs := Option.some.inj hs ▸ advance i pc m h hc
  stable irq pc m m' h hc hs := by
    cases irq with
    | sysTick t => exact tick t pc m m' h hc (interrupt_sysTick pc hs)
    | software recv =>
      obtain ⟨inb, rfl⟩ := interrupt_software pc hs
      exact inbox pc m inb h

end MultiZone.Robot
