import MultiZone.Robot.Stranded
import Mathlib.Data.List.Chain

/-! How long a step of a sequence is held. Its deadline is kept in the timer table,
which the SysTick and the main loop both write. -/
namespace MultiZone.Robot
open Transition Sequencer

/-- A step issued by robot_seq_task: the run of a sequence it belongs to, the
time its SysTick has read, and the end of its duration. -/
structure Issue where
  run : Nat
  time : Time
  due : Int
  deriving DecidableEq

def hostRound (t : Tick) (m : Mem) : Mem :=
  if t.time ≥ m.timecmp .usbHost then (usbHostTask t m).1.timerSet .usbHost 0 else m

/-- The duration of the step that robot_seq_task issues, if it issues one. -/
def issuedMs (t : Tick) (m : Mem) : Option Int :=
  if t.time ≥ m.timecmp .robotSeq ∧ m.usbState = .connected then
    (owiSequenceNext builtIn m.vars).toOption.bind fun r =>
      if r.1 = -1 then none else (owiSequenceGetMs builtIn r.2).toOption
  else none

/-- The application with its clock and, as history, the number of sequences
started and the steps issued. -/
structure Timed where
  mem : Mem
  clock : Time
  run : Nat
  issues : List Issue

namespace Timed

def started (m : Timed) (pc : Pc) : Nat :=
  match pc with
  | .start _ _ .sequence => m.run + 1
  | _ => m.run

def record (m : Timed) (t : Tick) : List Issue :=
  match issuedMs t (hostRound t m.mem) with
  | none => m.issues
  | some ms => m.issues ++ [⟨m.run, t.time, t.seqNow.toNat + ms * 1000⟩]

end Timed

/-- The application with a clock that does not go back. -/
def timed : Program Pc Timed Input Irq where
  entry := .init
  memory := ⟨.initial, 0, 0, []⟩
  statement i pc m :=
    if m.clock ≤ i.now then
      let next := statement i pc m.mem
      some ⟨next.pc, ⟨next.mem, i.now, m.started pc, m.issues⟩⟩
    else none
  interrupt irq pc m :=
    match irq with
    | .sysTick t =>
      if m.clock ≤ t.time ∧ t.time ≤ t.seqNow then
        (interrupt (.sysTick t) pc m.mem).map fun mem => ⟨mem, t.seqNow, m.run, m.record t⟩
      else none
    | .software recv =>
      (interrupt (.software recv) pc m.mem).map fun mem => ⟨mem, m.clock, m.run, m.issues⟩

/-- No step of a run is issued before the duration of the step before it is over. -/
def Held (issues : List Issue) : Prop :=
  issues.IsChain fun a b => a.run = b.run → a.due ≤ b.time.toNat

instance (issues : List Issue) : Decidable (Held issues) :=
  inferInstanceAs (Decidable (issues.IsChain _))

/-- The SysTick finds robot_seq_task due, the device connected, and a sequence
that is not at its end. -/
def Advances (t : Tick) (m : Mem) : Prop :=
  t.time ≥ m.timecmp .robotSeq ∧ (hostRound t m).usbState = .connected ∧
    m.vars.sequence ≠ none ∧ ¬ (m.vars.stop = true ∧ m.vars.stepIdx = 0)

instance (t : Tick) (m : Mem) : Decidable (Advances t m) := inferInstanceAs (Decidable (_ ∧ _))

def nextMs (s : State) : Option Int :=
  s.sequence.bind fun seq =>
    (readStep (builtIn seq) ((s.stepIdx + 1).tmod s.size)).toOption.map SequenceStep.durationMs

/-- No sequence is advanced between its start and the timer_set that follows, and
no deadline passes the end of the clock. -/
def Unhurried (p : Point Pc Timed) : Step → Prop
  | .interrupt (.sysTick t) => Advances t p.mem.mem → p.pc.starting = false ∧
      ∀ ms ∈ nextMs p.mem.mem.vars, t.seqNow.toNat + ms * 1000 < 2 ^ 64
  | _ => True

instance (p : Point Pc Timed) (a : Step) : Decidable (Unhurried p a) :=
  match a with
  | .statement _ => inferInstanceAs (Decidable True)
  | .interrupt (.sysTick _) => inferInstanceAs (Decidable (_ → _))
  | .interrupt (.software _) => inferInstanceAs (Decidable True)

def Pc.testing : Pc → Bool
  | .start _ _ .test => true
  | _ => false

/-- The last step issued in the current run is due in time, and none is issued
before the main loop has armed the task for the run. -/
structure Holds (pc : Pc) (m : Timed) : Prop where
  held : Held m.issues
  past : ∀ a ∈ m.issues.getLast?, a.run ≤ m.run
  due : ∀ a ∈ m.issues.getLast?, a.run = m.run →
    pc.starting = false ∧ a.due ≤ (m.mem.timecmp .robotSeq).toNat
  testing : pc.testing = true → m.mem.vars.sequence = none

section Durations

theorem builtIn_durations (seq : OwiSequence) :
    ∀ step ∈ builtIn seq, 0 ≤ step.durationMs ∧ step.durationMs ≤ 4500 := by
  cases seq <;> decide

theorem nextMs_range {s : State} {ms : Int} (h : nextMs s = some ms) : 0 ≤ ms ∧ ms ≤ 4500 := by
  obtain ⟨seq, -, hr⟩ := Option.bind_eq_some_iff.mp h
  obtain ⟨step, hstep, rfl⟩ := Option.map_eq_some_iff.mp hr
  have found : step ∈ builtIn seq := by
    unfold readStep at hstep
    split at hstep
    · cases hstep
    · split at hstep
      · cases hstep
      · rename_i hs
        exact Option.some.inj hstep ▸ List.mem_of_getElem? hs
  exact builtIn_durations seq step found

theorem ofInt_toNat {x : Int} (nonneg : 0 ≤ x) (bound : x < 2 ^ 64) :
    ((UInt64.ofInt x).toNat : Int) = x := by
  have reduced : x % 2 ^ 64 = x := Int.emod_eq_of_lt nonneg bound
  rw [UInt64.ofInt, reduced, UInt64.toNat_ofNat_of_lt', Int.toNat_of_nonneg nonneg]
  have size : UInt64.size = 2 ^ 64 := rfl
  omega

theorem deadline_toNat {now : Time} {ms : Int} (nonneg : 0 ≤ ms)
    (bound : now.toNat + ms * 1000 < 2 ^ 64) :
    ((now + UInt64.ofInt (ms * 1000)).toNat : Int) = now.toNat + ms * 1000 := by
  have offset := ofInt_toNat (x := ms * 1000) (by omega) (by omega)
  rw [UInt64.toNat_add]
  omega

end Durations

section Rounds

theorem timerRound_host (t : Tick) (m : Mem) :
    timerRound t m .usbHost = .ok (hostRound t m) := by
  unfold timerRound hostRound
  split <;> rfl

theorem seqRound_cases {t : Tick} {m m' : Mem} (h : timerRound t m .robotSeq = .ok m') :
    issuedMs t m = none ∧
      (m'.timecmp .robotSeq = m.timecmp .robotSeq ∨ m'.timecmp .robotSeq = never) ∨
    ∃ ms, issuedMs t m = some ms ∧ t.time ≥ m.timecmp .robotSeq ∧ m.usbState = .connected ∧
      m.vars.sequence ≠ none ∧ ¬ (m.vars.stop = true ∧ m.vars.stepIdx = 0) ∧
      nextMs m.vars = some ms ∧
      m'.timecmp .robotSeq = t.seqNow + UInt64.ofInt (ms * 1000) := by
  by_cases due : t.time ≥ m.timecmp .robotSeq
  case neg =>
    left
    simp only [timerRound, due, if_false, Except.ok.injEq] at h
    subst h
    simp only [issuedMs, due, false_and, if_false, true_or, and_self]
  simp only [timerRound, due, if_true, runTask, robotSeqTask] at h
  cases state : m.usbState with
  | disconnected =>
    left
    simp only [state, Except.map, Except.ok.injEq] at h
    subst h
    simp [issuedMs, state]
  | connected =>
    cases next : owiSequenceNext builtIn m.vars with
    | error e =>
      simp only [state, next, Except.bind, Except.map] at h
      cases h
    | ok r =>
      obtain ⟨n, vars⟩ := r
      obtain ⟨cmd, ms, getCmd, getMs⟩ := getters_ok next
      by_cases last : n = -1
      · left
        simp only [state, next, Except.bind, Except.map, last, if_true, Except.ok.injEq] at h
        subst h
        simp [issuedMs, state, next, last, Except.toOption]
      · right
        simp only [state, next, Except.bind, Except.map, last, if_false, getCmd, getMs,
          Except.ok.injEq] at h
        subst h
        obtain ⟨seq, step, hseq, running, hstep, hn, rfl⟩ := next_step next last
        have hms : step.durationMs = ms := by
          simpa [owiSequenceGetMs, hseq, hstep, Except.map] using getMs
        refine ⟨ms, ?_, due, rfl, by simp [hseq], running, ?_, by simp⟩
        · simp [issuedMs, due, state, next, last, getMs, Except.toOption]
        · simp [nextMs, hseq, ← hn, hstep, hms, Except.toOption]

theorem hostRound_keeps (t : Tick) (m : Mem) : UsbOnly m (hostRound t m) :=
  (hostRun_of_round (timerRound_host t m)).usbOnly

theorem tick_cases {t : Tick} {m m' : Mem} (h : timerHandler t m = .ok m') :
    (m.vars.sequence = none → m'.vars.sequence = none) ∧
    (issuedMs t (hostRound t m) = none ∧
      (m'.timecmp .robotSeq = m.timecmp .robotSeq ∨ m'.timecmp .robotSeq = never) ∨
    ∃ ms, issuedMs t (hostRound t m) = some ms ∧ Advances t m ∧ nextMs m.vars = some ms ∧
      m'.timecmp .robotSeq = t.seqNow + UInt64.ofInt (ms * 1000)) := by
  obtain ⟨m₁, m₂, host, seq, cmd⟩ := timerHandler_rounds h
  rw [timerRound_host, Except.ok.injEq] at host
  subst host
  have usb := hostRound_keeps t m
  have same : m'.timecmp .robotSeq = m₂.timecmp .robotSeq ∧ m'.vars = m₂.vars := by
    rcases (cmdRun_of_round cmd).cases_eq with rfl | ⟨-, rfl⟩
    · exact ⟨rfl, rfl⟩
    · exact ⟨rfl, rfl⟩
  rw [same.1, same.2]
  constructor
  · intro idle
    exact (seqRun_of_round seq).sequencerOnly.stays (usb.vars ▸ idle)
  rcases seqRound_cases seq with ⟨none, kept⟩ | ⟨ms, issue, due, connected, running, more, next, set⟩
  · exact .inl ⟨none, usb.robotSeq ▸ kept⟩
  · rw [usb.vars] at running more next
    rw [usb.robotSeq] at due
    exact .inr ⟨ms, issue, ⟨due, connected, running, more⟩, next, set⟩

end Rounds

section Statements

theorem leads_testing {i : Input} {m : Mem} {pc pc' : Pc} (h : Leads i m pc pc')
    (t : pc'.testing = true) : m.vars.sequence = none ∧ ∃ zone, pc = .testRunning zone := by
  cases h with
  | startMessage zone seq idle => exact ⟨idle, zone, rfl⟩
  | _ => cases t

theorem leads_to_starting {i : Input} {m : Mem} {pc pc' : Pc} (h : Leads i m pc pc')
    (s : pc'.starting = true) : pc.starting = true ∨ (∃ zone seq, pc = .start zone seq .sequence) ∨
      m.vars.sequence ≠ none ∧ pc.testing = true := by
  cases h with
  | startSequence zone seq => exact .inr (.inl ⟨zone, seq, rfl⟩)
  | startOver zone seq busy => exact .inr (.inr ⟨busy, rfl⟩)
  | _ => first | exact .inl rfl | cases s

theorem started_cases (m : Timed) (pc : Pc) :
    m.started pc = m.run ∧ (∀ zone seq, pc ≠ .start zone seq .sequence) ∨
      m.started pc = m.run + 1 := by
  unfold Timed.started
  split
  · exact .inr rfl
  · rename_i other
    exact .inl ⟨rfl, other⟩

theorem holds_statement {i : Input} {pc : Pc} {m : Timed} (h : Holds pc m) :
    Holds (statement i pc m.mem).pc
      ⟨(statement i pc m.mem).mem, i.now, m.started pc, m.issues⟩ := by
  have leads := statement_leads i pc m.mem
  refine ⟨h.held, fun a ha => ?_, fun a ha same => ?_, fun t => ?_⟩
  · have past := h.past a ha
    change a.run ≤ m.started pc
    rcases started_cases m pc with ⟨run, -⟩ | run
    · rw [run]
      exact past
    · rw [run]
      omega
  · have past := h.past a ha
    rcases started_cases m pc with ⟨run, other⟩ | run
    · obtain ⟨before, due⟩ := h.due a ha (same.trans run)
      constructor
      · cases next : (statement i pc m.mem).pc.starting with
        | false => rfl
        | true =>
          rcases leads_to_starting leads next with s | ⟨zone, seq, hpc⟩ | ⟨busy, t⟩
          · exact absurd s (by simp [before])
          · exact absurd hpc (other zone seq)
          · exact absurd (h.testing t) busy
      · rcases statement_robotSeq i pc m.mem with kept | ⟨zone, rfl⟩
        · rw [kept]
          exact due
        · cases before
    · have := same.trans run
      omega
  · obtain ⟨idle, zone, rfl⟩ := leads_testing leads t
    exact idle

end Statements

section Ticks

variable {m : Timed} {t : Tick}

theorem record_none (none : issuedMs t (hostRound t m.mem) = none) : m.record t = m.issues := by
  rw [Timed.record, none]

theorem record_some {ms : Int} (issue : issuedMs t (hostRound t m.mem) = some ms) :
    m.record t = m.issues ++ [⟨m.run, t.time, t.seqNow.toNat + ms * 1000⟩] := by
  rw [Timed.record, issue]

/-- A tick that issues nothing only ever puts the deadline off. -/
theorem holds_quiet {pc : Pc} {mem : Mem} (h : Holds pc m)
    (idle : m.mem.vars.sequence = none → mem.vars.sequence = none)
    (kept : mem.timecmp .robotSeq = m.mem.timecmp .robotSeq ∨ mem.timecmp .robotSeq = never) :
    Holds pc ⟨mem, t.seqNow, m.run, m.issues⟩ := by
  refine ⟨h.held, h.past, fun a ha same => ?_, fun t => idle (h.testing t)⟩
  obtain ⟨before, due⟩ := h.due a ha same
  refine ⟨before, ?_⟩
  change a.due ≤ ((mem.timecmp .robotSeq).toNat : Int)
  have last : (m.mem.timecmp .robotSeq).toNat ≤ never.toNat := by
    have bound := (m.mem.timecmp .robotSeq).toNat_lt
    have max : never.toNat = 2 ^ 64 - 1 := rfl
    omega
  rcases kept with kept | off
  · rw [kept]
    exact due
  · rw [off]
    omega

theorem holds_issue {pc : Pc} {mem : Mem} {ms : Int} (h : Holds pc m)
    (idle : m.mem.vars.sequence = none → mem.vars.sequence = none)
    (advances : Advances t m.mem) (next : nextMs m.mem.vars = some ms)
    (unhurried : Unhurried ⟨pc, m⟩ (.interrupt (.sysTick t)))
    (set : mem.timecmp .robotSeq = t.seqNow + UInt64.ofInt (ms * 1000)) :
    Holds pc ⟨mem, t.seqNow, m.run,
      m.issues ++ [⟨m.run, t.time, t.seqNow.toNat + ms * 1000⟩]⟩ := by
  obtain ⟨after, bound⟩ := unhurried advances
  have deadline := deadline_toNat (nextMs_range next).1 (bound ms next)
  refine ⟨?_, ?_, ?_, fun t => idle (h.testing t)⟩
  · apply h.held.append (List.isChain_singleton _)
    intro a ha b hb same
    obtain rfl := Option.some.inj hb
    have due := (h.due a ha same).2
    have reached := UInt64.le_iff_toNat_le.mp advances.1
    change a.due ≤ (t.time.toNat : Int)
    omega
  · intro a ha
    obtain rfl := Option.some.inj (List.getLast?_concat.symm.trans ha)
    exact Nat.le_refl m.run
  · intro a ha _
    obtain rfl := Option.some.inj (List.getLast?_concat.symm.trans ha)
    refine ⟨after, ?_⟩
    change t.seqNow.toNat + ms * 1000 ≤ ((mem.timecmp .robotSeq).toNat : Int)
    rw [set, deadline]

theorem holds_tick {pc : Pc} {mem : Mem} (h : Holds pc m)
    (unhurried : Unhurried ⟨pc, m⟩ (.interrupt (.sysTick t)))
    (ht : timerHandler t m.mem = .ok mem) : Holds pc ⟨mem, t.seqNow, m.run, m.record t⟩ := by
  obtain ⟨idle, ⟨quiet, kept⟩ | ⟨ms, issue, advances, next, set⟩⟩ := tick_cases ht
  · rw [record_none quiet]
    exact holds_quiet h idle kept
  · rw [record_some issue]
    exact holds_issue h idle advances next unhurried set

end Ticks

theorem holds_outline : timed.Outline Unhurried Holds where
  enter := ⟨.nil, nofun, nofun, nofun⟩
  advance i pc m next h _ hs := by
    simp only [timed] at hs
    split at hs
    · cases Option.some.inj hs
      exact holds_statement h
    · cases hs
  stable irq pc m m' h unhurried hs := by
    cases irq with
    | sysTick t =>
      simp only [timed] at hs
      split at hs
      · obtain ⟨mem, hm, rfl⟩ := Option.map_eq_some_iff.mp hs
        exact holds_tick h unhurried (interrupt_sysTick pc hm)
      · cases hs
    | software recv =>
      obtain ⟨mem, hm, rfl⟩ := Option.map_eq_some_iff.mp hs
      obtain ⟨inbox, rfl⟩ := interrupt_software pc hm
      exact ⟨h.held, h.past, h.due, h.testing⟩

/-- Where no sequence is advanced in the middle of its start, every step is held
for its duration. -/
theorem steps_held {steps : List Step} {p : Point Pc Timed}
    (unhurried : timed.machine.Obeys Unhurried timed.machine.initial steps)
    (hr : timed.machine.run timed.machine.initial steps = some p) : Held p.mem.issues :=
  (holds_outline.holds unhurried hr).held

/-- The first two steps of a sequence, the second when the first is over. -/
def twoSteps : List Step := started ++ [sysTick 1200002 [], sysTick 1200003 []]

theorem twoSteps_held :
    ∃ p, timed.machine.run timed.machine.initial twoSteps = some p ∧
      p.mem.issues = [⟨1, 3, 1200003⟩, ⟨1, 1200003, 3000003⟩] ∧ Held p.mem.issues :=
  have unhurried : timed.machine.Obeys Unhurried timed.machine.initial twoSteps := by decide
  ⟨_, rfl, rfl, steps_held unhurried rfl⟩

/-- The device disconnects while a step is held and connects again, and the
deadline of that step passes in the middle of the next start. -/
def leftover : List Step :=
  started ++ [sysTick 4 [.dettached]] ++ proceed 22 4 ++ [sysTick 5 [.classDriverAssigned]] ++
    proceed 26 5 ++ [sysTick 300006 [], receive .zone1 ['s', 't', 'a', 'r', 't']] ++
    proceed 12 1200002 ++ [sysTick 1200003 []] ++ proceed 1 1200003 ++ [sysTick 1201003 []]

set_option maxRecDepth 2000 in
theorem leftover_cutsShort :
    ∃ p, timed.machine.run timed.machine.initial leftover = some p ∧
      p.mem.issues = [⟨1, 3, 1200003⟩, ⟨2, 1200003, 2400003⟩, ⟨2, 1201003, 3001003⟩] ∧
      ¬ Held p.mem.issues :=
  ⟨_, rfl, rfl, by decide⟩

end MultiZone.Robot
