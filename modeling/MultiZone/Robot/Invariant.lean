import MultiZone.Robot.Control
import MultiZone.Robot.Tick

/-! What holds in every run of the robot application, whatever the order of
messages, connections and ticks. -/
namespace MultiZone.Robot
open Transition Sequencer

/-- The message being handled has found the device connected, and a start may
follow. -/
def Pc.admitted : Pc → Bool
  | .testManCmd _ | .testRunning _ | .start _ _ _ => true
  | _ => false

/-- man_cmd has been found to be CMD_STOP since the message was taken up. -/
def Pc.cleared : Pc → Bool
  | .stopReq _ | .testRunning _ | .start _ _ _ | .seqTimerSet _ | .setManCmd _ _ => true
  | _ => false

def Pc.free : Pc → Bool
  | .start _ _ .sequence | .setManCmd _ _ => true
  | _ => false

def Pc.stopping : Pc → Bool
  | .stop .stepIdx | .stop .size | .stop .stop => true
  | _ => false

def Pc.unindexed : Pc → Bool
  | .start _ _ .size | .start _ _ .stepIdx => true
  | _ => false

structure Invariant (pc : Pc) (m : Mem) : Prop where
  admitted : pc.admitted = true → m.usbEvent = false → m.usbState = .connected
  cleared : pc.cleared = true → m.manCmd = cmdStop
  free : pc.free = true → m.vars.sequence = none
  alone : m.manCmd ≠ cmdStop → m.vars.sequence = none
  stopping : pc.stopping = true → m.vars.sequence = none
  rewound : m.vars.sequence = none → pc ≠ .stop .stepIdx → m.vars.stepIdx = 0
  cancelled : pc.unindexed = true → m.vars.stop = true → m.vars.stepIdx = 0

section Flow

variable {i : Input} {m : Mem} {pc pc' : Pc}

theorem leads_admitted (h : Leads i m pc pc') (a : pc'.admitted = true) :
    pc.admitted = true ∨ m.usbState = .connected := by
  cases h with
  | testConnected zone connected => exact .inr connected
  | _ => first | exact .inl rfl | cases a

theorem leads_cleared (h : Leads i m pc pc') (c : pc'.cleared = true) :
    pc.cleared = true ∨ m.manCmd = cmdStop := by
  cases h with
  | stopMessage zone free | testManCmd zone free => exact .inr free
  | _ => first | exact .inl rfl | cases c

theorem leads_free (h : Leads i m pc pc') (f : pc'.free = true) : m.vars.sequence = none := by
  cases h with
  | startTest zone seq idle => exact idle
  | keyMessage zone cmd idle => exact idle
  | _ => cases f

theorem leads_stopping (h : Leads i m pc pc') (s : pc'.stopping = true) :
    pc.stopping = true ∨ pc = .stop .sequence := by
  cases h with
  | stopSequence => exact .inr rfl
  | _ => first | exact .inl rfl | cases s

theorem leads_unindexed (h : Leads i m pc pc') (u : pc'.unindexed = true) :
    pc.unindexed = true ∨ pc.free = true := by
  cases h with
  | startSequence zone seq => exact .inr rfl
  | _ => first | exact .inl rfl | cases u

end Flow

section Statement

variable {i : Input} {pc : Pc} {m : Mem}

theorem invariant_admitted (h : Invariant pc m) (a : (statement i pc m).pc.admitted = true)
    (quiet : (statement i pc m).mem.usbEvent = false) :
    (statement i pc m).mem.usbState = .connected := by
  rw [statement_usbState]
  rcases leads_admitted (statement_leads i pc m) a with before | connected
  · have event : (statement i pc m).mem.usbEvent = m.usbEvent := by
      refine (statement_usbEvent i pc m).resolve_right ?_
      rintro rfl
      cases before
    exact h.admitted before (event ▸ quiet)
  · exact connected

theorem invariant_cleared (h : Invariant pc m) (c : (statement i pc m).pc.cleared = true) :
    (statement i pc m).mem.manCmd = cmdStop := by
  rcases statement_manCmd i pc m with same | ⟨zone, cmd, rfl⟩
  · rw [same]
    exact (leads_cleared (statement_leads i pc m) c).elim h.cleared id
  · cases c

theorem statement_idle (i : Input) (idle : m.vars.sequence = none)
    (other : ∀ zone seq, pc ≠ .start zone seq .sequence) :
    (statement i pc m).mem.vars.sequence = none := by
  rcases statement_sequence i pc m with seq | seq | ⟨zone, seq, hpc⟩
  · exact seq.trans idle
  · exact seq
  · exact absurd hpc (other zone seq)

theorem invariant_free (f : (statement i pc m).pc.free = true) :
    (statement i pc m).mem.vars.sequence = none := by
  refine statement_idle i (leads_free (statement_leads i pc m) f) ?_
  rintro zone seq rfl
  cases f

theorem invariant_alone (h : Invariant pc m) (set : (statement i pc m).mem.manCmd ≠ cmdStop) :
    (statement i pc m).mem.vars.sequence = none := by
  rcases statement_manCmd i pc m with same | ⟨zone, cmd, rfl⟩
  · rw [same] at set
    refine statement_idle i (h.alone set) ?_
    rintro zone seq rfl
    exact set (h.cleared rfl)
  · exact h.free rfl

theorem invariant_stopping (h : Invariant pc m) (s : (statement i pc m).pc.stopping = true) :
    (statement i pc m).mem.vars.sequence = none := by
  rcases leads_stopping (statement_leads i pc m) s with before | rfl
  · refine statement_idle i (h.stopping before) ?_
    rintro zone seq rfl
    cases before
  · rfl

theorem invariant_rewound (h : Invariant pc m)
    (idle : (statement i pc m).mem.vars.sequence = none)
    (hpc : (statement i pc m).pc ≠ .stop .stepIdx) :
    (statement i pc m).mem.vars.stepIdx = 0 := by
  cases pc with
  | start zone seq p =>
    cases p with
    | sequence => cases idle
    | stepIdx => rfl
    | test | size | stop => exact h.rewound idle nofun
  | stop p =>
    cases p with
    | sequence => exact absurd rfl hpc
    | stepIdx => rfl
    | size | stop => exact h.rewound idle nofun
  | _ => exact h.rewound idle nofun

theorem invariant_cancelled (h : Invariant pc m)
    (u : (statement i pc m).pc.unindexed = true)
    (stop : (statement i pc m).mem.vars.stop = true) :
    (statement i pc m).mem.vars.stepIdx = 0 := by
  rcases leads_unindexed (statement_leads i pc m) u with before | free
  · cases pc with
    | start zone seq p =>
      cases p with
      | size => exact h.cancelled rfl stop
      | stepIdx => rfl
      | test | sequence | stop => cases before
    | _ => cases before
  · have idle := h.free free
    cases pc with
    | start zone seq p =>
      cases p with
      | sequence => exact h.rewound idle nofun
      | test | size | stepIdx | stop => cases free
    | setManCmd zone cmd => cases u
    | _ => cases free

theorem invariant_statement (h : Invariant pc m) :
    Invariant (statement i pc m).pc (statement i pc m).mem where
  admitted := invariant_admitted h
  cleared := invariant_cleared h
  free := invariant_free
  alone := invariant_alone h
  stopping := invariant_stopping h
  rewound := invariant_rewound h
  cancelled := invariant_cancelled h

end Statement

/-- Only the first step of a sequence has no duration. -/
theorem untimed_first {seq : OwiSequence} {r : Int} {step : SequenceStep}
    (hstep : readStep (builtIn seq) r = .ok step) (untimed : step.durationMs = 0) : r = 0 := by
  have tables : ∀ i : Fin (builtIn seq).length, ((builtIn seq).get i).durationMs = 0 →
      i.val = 0 := by
    cases seq <;> decide
  unfold readStep at hstep
  split at hstep
  · cases hstep
  · cases hget : (builtIn seq)[r.toNat]? with
    | none => rw [hget] at hstep; cases hstep
    | some found =>
      rw [hget] at hstep
      obtain rfl := Except.ok.inj hstep
      obtain ⟨inside, rfl⟩ := List.getElem?_eq_some_iff.mp hget
      have first := tables ⟨r.toNat, inside⟩ untimed
      dsimp only at first
      omega

theorem invariant_seqRun {t : Tick} {pc : Pc} {m m' : Mem} (hr : SeqRun t m m')
    (h : Invariant pc m) : Invariant pc m' := by
  have only := hr.sequencerOnly
  refine ⟨fun a quiet => ?_, fun c => only.manCmd.trans (h.cleared c),
    fun f => only.stays (h.free f), fun set => only.stays (h.alone (only.manCmd ▸ set)),
    fun s => only.stays (h.stopping s), fun idle hpc => ?_, fun u stop => ?_⟩
  · exact only.usbState.trans (h.admitted a (only.usbEvent ▸ quiet))
  · rcases hr.vars_cases with same | ⟨last, finished⟩ | ⟨seq, step, r, hseq, -, -, moved⟩
    · rw [same] at idle ⊢
      exact h.rewound idle hpc
    · rw [finished]
      exact last.2
    · rw [moved] at idle
      exact absurd (hseq.symm.trans idle) (by simp)
  -- a tick inside a start may auto-stop the sequence, but only back at its first step
  · rcases hr.vars_cases with same | ⟨last, finished⟩ | ⟨seq, step, r, -, more, hstep, moved⟩
    · rw [same] at stop ⊢
      exact h.cancelled u stop
    · rw [finished]
      exact last.2
    · have running : m.vars.stop ≠ true := fun stop => more ⟨stop, h.cancelled u stop⟩
      rw [moved] at stop ⊢
      exact untimed_first hstep (by simpa [running] using stop)

theorem invariant_tick {t : Tick} {pc : Pc} {m m' : Mem} (h : Invariant pc m)
    (ht : timerHandler t m = .ok m') : Invariant pc m' := by
  refine timerHandler_keeps (fun m m' hr h => ?_) (fun m m' hr h => invariant_seqRun hr h)
    (fun m m' hr h => ?_) ht h
  · have usb := hr.usbOnly
    rw [show m' = { m' with vars := m.vars } by rw [← usb.vars]]
    refine ⟨fun a quiet => ?_, fun c => usb.manCmd.trans (h.cleared c), h.free,
      fun set => h.alone (usb.manCmd ▸ set), h.stopping, h.rewound, h.cancelled⟩
    obtain ⟨before, state, -⟩ := usb.quiet quiet
    exact state.trans (h.admitted a before)
  · rcases hr.cases_eq with rfl | ⟨-, rfl⟩
    · exact h
    · exact ⟨h.admitted, fun _ => rfl, h.free, fun set => absurd rfl set, h.stopping,
        h.rewound, h.cancelled⟩

theorem invariant_outline : program.Outline (fun _ _ => True) Invariant :=
  outline_of_steps
    ⟨nofun, nofun, nofun, fun _ => rfl, nofun, fun _ _ => rfl, nofun⟩
    (fun _ _ _ h _ => invariant_statement h) (fun _ _ _ _ h _ => invariant_tick h)
    fun _ _ _ h => ⟨h.admitted, h.cleared, h.free, h.alone, h.stopping, h.rewound, h.cancelled⟩

end MultiZone.Robot
