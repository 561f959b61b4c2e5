import MultiZone.Robot.Invariant

/-! The manual command, which shuts out every message but ping while it is set:
robot_cmd_task is armed to clear it, and no sequence runs meanwhile. -/
namespace MultiZone.Robot
open Transition Sequencer

def Pc.issuing : Pc → Bool
  | .testKey _ => true
  | .usbWrite site | .dataBuf site _ | .getCepState site | .testCep site _
  | .configurePipe site | .startXfr site | .readMtime site | .timerSet site _ =>
    site ≠ .ack
  | _ => false

structure Armed (pc : Pc) (m : Mem) : Prop where
  deadline : ∀ site t, pc = .timerSet site t → t ≠ never
  armed : m.manCmd ≠ cmdStop → m.timecmp .robotCmd ≠ never ∨ pc.issuing = true

def Early : Point Pc Mem → Step → Prop :=
  onSteps (fun i _ _ => i.now.toNat < 2 ^ 63)
    fun t _ _ => t.time.toNat < 2 ^ 63 ∧ t.seqNow.toNat < 2 ^ 63

instance (p : Point Pc Mem) (a : Step) : Decidable (Early p a) :=
  inferInstanceAs (Decidable (onSteps _ _ p a))

theorem deadline_ne_never {now delay : Time} (early : now.toNat < 2 ^ 63)
    (short : delay.toNat < 2 ^ 32) : now + delay ≠ never := by
  intro h
  have sum := congrArg UInt64.toNat h
  rw [UInt64.toNat_add] at sum
  have max : never.toNat = 2 ^ 64 - 1 := rfl
  omega

theorem delay_short (site : Site) : site.delay.toNat < 2 ^ 32 := by
  cases site with
  | ack => decide
  | key zone => exact show manCmdTime.toNat < 2 ^ 32 by decide

theorem leads_issuing {i : Input} {m : Mem} {pc pc' : Pc} (h : Leads i m pc pc')
    (c : pc.issuing = true) (set : m.manCmd ≠ cmdStop) :
    pc'.issuing = true ∨ ∃ site t, pc = .timerSet site t := by
  cases h with
  | noKey zone free => exact absurd free set
  | issued zone t => exact .inr ⟨_, t, rfl⟩
  | _ => first | exact .inl c | cases c

theorem armed_statement {i : Input} {pc : Pc} {m : Mem} (h : Armed pc m)
    (early : i.now.toNat < 2 ^ 63) : Armed (statement i pc m).pc (statement i pc m).mem := by
  have leads := statement_leads i pc m
  refine ⟨fun site t hpc => ?_, fun set => ?_⟩
  · rw [hpc] at leads
    cases leads with
    | readMtime site => exact deadline_ne_never early (delay_short site)
  · rcases statement_manCmd i pc m with same | ⟨zone, cmd, rfl⟩
    · rw [same] at set
      rcases statement_robotCmd i pc m with cmd | ⟨site, t, rfl⟩
      · rcases h.armed set with armed | issuing
        · exact .inl (cmd ▸ armed)
        · rcases leads_issuing leads issuing set with next | ⟨site, t, rfl⟩
          · exact .inr next
          · exact .inl (by simpa [statement] using h.deadline site t rfl)
      · exact .inl (by simpa [statement] using h.deadline site t rfl)
    · exact .inr rfl

theorem armed_tick {t : Tick} {pc : Pc} {m m' : Mem} (h : Armed pc m)
    (ht : timerHandler t m = .ok m') : Armed pc m' := by
  refine timerHandler_keeps (fun m m' hr h => ?_) (fun m m' hr h => ?_)
    (fun m m' hr h => ?_) ht h
  · have usb := hr.usbOnly
    exact ⟨h.deadline, fun set => by rw [usb.robotCmd]; exact h.armed (usb.manCmd ▸ set)⟩
  · have seq := hr.sequencerOnly
    exact ⟨h.deadline, fun set => by rw [seq.robotCmd]; exact h.armed (seq.manCmd ▸ set)⟩
  · rcases hr.cases_eq with rfl | ⟨-, rfl⟩
    · exact h
    · exact ⟨h.deadline, fun set => absurd rfl set⟩

theorem armed_outline : program.Outline Early Armed :=
  outline_of_steps ⟨nofun, fun set => absurd rfl set⟩ (fun _ _ _ => armed_statement)
    (fun _ _ _ _ h _ => armed_tick h) fun _ _ _ h => ⟨h.deadline, h.armed⟩

/-- While a manual command is set, the timer that clears it is armed or about to
be, and at wfi it is armed. -/
theorem manual_lock_released {steps : List Step} {p : Point Pc Mem}
    (early : program.machine.Obeys Early program.machine.initial steps)
    (hr : program.machine.run program.machine.initial steps = some p) (wfi : p.pc = .wfi)
    (set : p.mem.manCmd ≠ cmdStop) :
    p.mem.timecmp .robotCmd ≠ never ∧ owiSequenceIsRunning p.mem.vars = false := by
  have armed := (armed_outline.holds early hr).armed set
  have alone := (invariant_outline.always hr).alone
  refine ⟨armed.resolve_right (by simp [wfi, Pc.issuing]), ?_⟩
  simp [owiSequenceIsRunning, alone set]

/-- The device connects, and "q" arrives, before the first pass over the inbox. -/
def keyPressed : List Step :=
  proceed 2 0 ++ [sysTick 1 [.classDriverAssigned], receive .zone1 ['q']] ++ proceed 26 2

theorem keyPressed_locked :
    ∃ p, program.machine.run program.machine.initial keyPressed = some p ∧ p.pc = .wfi ∧
      p.mem.manCmd = 0x000001 ∧
      p.mem.timecmp .robotCmd ≠ never ∧ owiSequenceIsRunning p.mem.vars = false :=
  have early : program.machine.Obeys Early program.machine.initial keyPressed := by decide
  ⟨_, rfl, rfl, rfl, manual_lock_released early rfl rfl (by decide)⟩

end MultiZone.Robot
