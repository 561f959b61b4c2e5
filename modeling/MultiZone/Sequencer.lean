import MultiZone.Transition.Preemption

/-! The sequencer of the robot. The main loop starts and stops sequences one
assignment at a time, and the timer interrupt advances them in between. -/
namespace MultiZone.Sequencer
open Transition

inductive OwiSequence where
  | main
  | fold
  | unfold
  deriving DecidableEq, Repr

structure SequenceStep where
  command : BitVec 32
  durationMs : Int
  deriving DecidableEq

abbrev Tables := OwiSequence → List SequenceStep

namespace Cmd

def stop : BitVec 32 := 0x000000
def gripClose : BitVec 32 := 0x000001
def gripOpen : BitVec 32 := 0x000002
def wristUp : BitVec 32 := 0x000004
def wristDwn : BitVec 32 := 0x000008
def elbowUp : BitVec 32 := 0x000010
def elbowDwn : BitVec 32 := 0x000020
def shoulderUp : BitVec 32 := 0x000040
def shoulderDwn : BitVec 32 := 0x000080
def baseClockwise : BitVec 32 := 0x000100
def baseCounterclk : BitVec 32 := 0x000200
def armUp : BitVec 32 := wristDwn ||| elbowUp ||| shoulderUp
def armDwn : BitVec 32 := wristUp ||| elbowDwn ||| shoulderDwn ||| baseClockwise

end Cmd

def tStop : Int := 1000
def tGrip : Int := 1200
def tWrist : Int := 1800
def tArm : Int := 1800
def tBase : Int := 3000
def tFold : Int := 4500
def tFoldShoulder : Int := 1200

def mainSequence : List SequenceStep :=
  [⟨Cmd.stop, tStop⟩, ⟨Cmd.gripClose, tGrip⟩, ⟨Cmd.wristUp, tWrist⟩, ⟨Cmd.armDwn, tArm⟩,
   ⟨Cmd.baseClockwise, tBase⟩, ⟨Cmd.gripOpen, tGrip⟩, ⟨Cmd.stop, tStop⟩, ⟨Cmd.gripClose, tGrip⟩,
   ⟨Cmd.baseCounterclk, tBase⟩, ⟨Cmd.baseCounterclk, tArm * 80 / 100⟩,
   ⟨Cmd.armUp, tArm * 105 / 100⟩, ⟨Cmd.elbowUp, tArm * 5 / 100⟩,
   ⟨Cmd.wristDwn, tWrist * 80 / 100⟩, ⟨Cmd.gripOpen, tGrip⟩]

/-- The factors 0.05, 0.10 and 1.25 of the source give whole milliseconds. -/
def foldSequence : List SequenceStep :=
  [⟨Cmd.stop, 0⟩, ⟨Cmd.gripOpen, 100⟩,
   ⟨Cmd.elbowDwn ||| Cmd.shoulderUp ||| Cmd.wristDwn, tFold⟩,
   ⟨Cmd.elbowDwn, tFold * 5 / 100⟩, ⟨Cmd.shoulderUp, tFoldShoulder⟩]

def unfoldSequence : List SequenceStep :=
  [⟨Cmd.stop, 0⟩, ⟨Cmd.elbowUp, tFold * 10 / 100⟩,
   ⟨Cmd.shoulderDwn, tFoldShoulder * 125 / 100⟩,
   ⟨Cmd.elbowUp ||| Cmd.shoulderDwn ||| Cmd.wristUp, tFold⟩]

def builtIn : Tables
  | .main => mainSequence
  | .fold => foldSequence
  | .unfold => unfoldSequence

/-- The variables of owi_sequence.c; `sequence` is NULL or points to a table. -/
structure State where
  sequence : Option OwiSequence
  stepIdx : Int
  size : Int
  stop : Bool
  deriving DecidableEq

def State.initial : State := ⟨none, 0, 0, true⟩

inductive Fault where
  | divideByZero
  | outOfBounds
  deriving DecidableEq

def readStep (table : List SequenceStep) (i : Int) : Except Fault SequenceStep :=
  if i < 0 then .error .outOfBounds
  else match table[i.toNat]? with
    | none => .error .outOfBounds
    | some step => .ok step

def owiSequenceNext (tables : Tables) (s : State) : Except Fault (Int × State) :=
  let s := if s.stop ∧ s.stepIdx = 0 then { s with sequence := none } else s
  match s.sequence with
  | none => .ok (-1, s)
  | some seq =>
    if s.size = 0 then .error .divideByZero
    else
      let s := { s with stepIdx := (s.stepIdx + 1).tmod s.size }
      (readStep (tables seq) s.stepIdx).map fun step =>
        -- Auto stop FOLD/UNFOLD
        (s.stepIdx, if step.durationMs = 0 then { s with stop := true } else s)

def lit (stop : Bool) (cmd : BitVec 32) : BitVec 32 :=
  if stop then cmd &&& ~~~(1#32 <<< 16) else cmd ||| (1#32 <<< 16)

def owiSequenceGetCmd (tables : Tables) (s : State) : Except Fault (BitVec 32) :=
  match s.sequence with
  | none => .ok 0
  | some seq => (readStep (tables seq) s.stepIdx).map fun step => lit s.stop step.command

def owiSequenceGetMs (tables : Tables) (s : State) : Except Fault Int :=
  match s.sequence with
  | none => .ok 0
  | some seq => (readStep (tables seq) s.stepIdx).map SequenceStep.durationMs

def owiSequenceIsRunning (s : State) : Bool := s.sequence.isSome

inductive Call where
  | start (seq : OwiSequence)
  | stop
  | stopReq

inductive StartPc where
  | test
  | sequence
  | size
  | stepIdx
  | stop
  deriving DecidableEq, Repr

inductive StopPc where
  | sequence
  | stepIdx
  | size
  | stop
  deriving DecidableEq, Repr

inductive Pc where
  | start (seq : OwiSequence) (pc : StartPc)
  | stop (pc : StopPc)
  | stopReq
  deriving DecidableEq, Repr

def Call.entry : Call → Pc
  | .start seq => .start seq .test
  | .stop => .stop .sequence
  | .stopReq => .stopReq

/-- One statement of owi_sequence_start; no next one when it returns. -/
def owiSequenceStart (tables : Tables) (seq : OwiSequence) (pc : StartPc) (s : State) :
    Option StartPc × State :=
  match pc with
  | .test => (if s.sequence = none then some .sequence else none, s)
  | .sequence => (some .size, { s with sequence := some seq })
  | .size => (some .stepIdx, { s with size := (tables seq).length })
  | .stepIdx => (some .stop, { s with stepIdx := 0 })
  | .stop => (none, { s with stop := false })

def owiSequenceStop (pc : StopPc) (s : State) : Option StopPc × State :=
  match pc with
  | .sequence => (some .stepIdx, { s with sequence := none })
  | .stepIdx => (some .size, { s with stepIdx := 0 })
  | .size => (some .stop, { s with size := 0 })
  | .stop => (none, { s with stop := true })

def owiSequenceStopReq (s : State) : State := { s with stop := true }

def exec (tables : Tables) (pc : Pc) (s : State) : Option Pc × State :=
  match pc with
  | .start seq pc => (owiSequenceStart tables seq pc s).map (Option.map (.start seq)) id
  | .stop pc => (owiSequenceStop pc s).map (Option.map .stop) id
  | .stopReq => (none, owiSequenceStopReq s)

def tick (tables : Tables) (s : State) : Except Fault State :=
  (owiSequenceNext tables s).bind fun r =>
    (owiSequenceGetCmd tables r.2).bind fun _ => (owiSequenceGetMs tables r.2).map fun _ => r.2

/-- `ticked`: the interrupt has run inside the call in progress. -/
structure Mem where
  vars : State
  ticked : Bool

/-- Ticks are at least as far apart as a call takes. -/
def TickAllowed (pc : Option Pc) (m : Mem) : Prop := pc = none ∨ m.ticked = false

instance (pc : Option Pc) (m : Mem) : Decidable (TickAllowed pc m) :=
  inferInstanceAs (Decidable (_ ∨ _))

/-- The calls are made in any order; no statement is next between two calls. -/
def program (tables : Tables) : Program (Option Pc) Mem Call Unit where
  entry := none
  memory := ⟨.initial, false⟩
  statement call pc m :=
    match pc with
    | none => some ⟨some call.entry, { m with ticked := false }⟩
    | some pc =>
      let r := exec tables pc m.vars
      some ⟨r.1, { m with vars := r.2 }⟩
  interrupt _ pc m :=
    if TickAllowed pc m then
      match tick tables m.vars with
      | .ok vars => some ⟨vars, m.ticked || pc.isSome⟩
      | .error _ => none
    else none

/-- A running sequence has its own size and an index into its table. -/
def Represented (tables : Tables) (s : State) : Prop :=
  ∀ seq, s.sequence = some seq →
    s.size = (tables seq).length ∧ 0 ≤ s.stepIdx ∧ s.stepIdx < s.size

theorem readStep_ok_iff {table : List SequenceStep} {i : Int} :
    (∃ step, readStep table i = .ok step) ↔ 0 ≤ i ∧ i < table.length := by
  unfold readStep
  split
  · rename_i neg
    refine iff_of_false (by simp) fun h => absurd h.1 (Int.not_le.mpr neg)
  · rename_i nonneg
    have bound : i < table.length ↔ i.toNat < table.length := by omega
    cases ht : table[i.toNat]? with
    | none =>
      have outside := List.getElem?_eq_none_iff.mp ht
      refine iff_of_false (by simp) fun h => ?_
      omega
    | some step =>
      have inside := (List.getElem?_eq_some_iff.mp ht).1
      refine iff_of_true ⟨step, rfl⟩ ?_
      omega

/-- When advancing the sequence is defined in C. -/
def Steady (tables : Tables) (s : State) : Prop :=
  ∀ seq, s.sequence = some seq → (s.stop = true ∧ s.stepIdx = 0) ∨
    s.size ≠ 0 ∧ 0 ≤ (s.stepIdx + 1).tmod s.size ∧
      (s.stepIdx + 1).tmod s.size < (tables seq).length

theorem next_of_none {tables : Tables} {s : State} (h : s.sequence = none) :
    owiSequenceNext tables s = .ok (-1, s) := by
  obtain ⟨sequence, stepIdx, size, stop⟩ := s
  obtain rfl : sequence = none := h
  unfold owiSequenceNext
  split <;> rfl

theorem next_of_stopped {tables : Tables} {s : State} (h : s.stop = true ∧ s.stepIdx = 0) :
    owiSequenceNext tables s = .ok (-1, { s with sequence := none }) := by
  simp [owiSequenceNext, h]

theorem next_of_running {tables : Tables} {s : State} {seq : OwiSequence}
    (hseq : s.sequence = some seq) (running : ¬ (s.stop = true ∧ s.stepIdx = 0))
    (hsize : s.size ≠ 0) : owiSequenceNext tables s =
      (readStep (tables seq) ((s.stepIdx + 1).tmod s.size)).map fun step =>
        ((s.stepIdx + 1).tmod s.size, { s with
          stepIdx := (s.stepIdx + 1).tmod s.size
          stop := s.stop || decide (step.durationMs = 0) }) := by
  unfold owiSequenceNext
  simp only [running, if_false, hseq, hsize]
  congr 1
  funext step
  split <;> simp [*]

theorem next_cases {tables : Tables} {s s' : State} {r : Int}
    (h : owiSequenceNext tables s = .ok (r, s')) :
    (s.sequence = none ∧ r = -1 ∧ s' = s) ∨
    ((s.stop = true ∧ s.stepIdx = 0) ∧ r = -1 ∧ s' = { s with sequence := none }) ∨
    ∃ seq step, s.sequence = some seq ∧ ¬ (s.stop = true ∧ s.stepIdx = 0) ∧ s.size ≠ 0 ∧
      readStep (tables seq) r = .ok step ∧ r = (s.stepIdx + 1).tmod s.size ∧
      s' = { s with stepIdx := r, stop := s.stop || decide (step.durationMs = 0) } := by
  by_cases stopped : s.stop = true ∧ s.stepIdx = 0
  · rw [next_of_stopped stopped, Except.ok.injEq, Prod.mk.injEq] at h
    exact .inr (.inl ⟨stopped, h.1.symm, h.2.symm⟩)
  rcases Option.eq_none_or_eq_some s.sequence with hseq | ⟨seq, hseq⟩
  · rw [next_of_none hseq, Except.ok.injEq, Prod.mk.injEq] at h
    exact .inl ⟨hseq, h.1.symm, h.2.symm⟩
  · by_cases hsize : s.size = 0
    · simp [owiSequenceNext, stopped, hseq, hsize] at h
    rw [next_of_running hseq stopped hsize] at h
    cases hstep : readStep (tables seq) ((s.stepIdx + 1).tmod s.size) with
    | error e => rw [hstep] at h; cases h
    | ok step =>
      rw [hstep] at h
      obtain ⟨rfl, rfl⟩ := Prod.mk.inj (Except.ok.inj h)
      exact .inr (.inr ⟨seq, step, hseq, stopped, hsize, hstep, rfl, rfl⟩)

theorem next_ended {tables : Tables} {s s' : State} (h : owiSequenceNext tables s = .ok (-1, s')) :
    (s.sequence = none ∨ s.stop = true ∧ s.stepIdx = 0) ∧ s'.sequence = none := by
  rcases next_cases h with ⟨idle, -, rfl⟩ | ⟨last, -, rfl⟩ | ⟨seq, step, -, -, -, hstep, -, -⟩
  · exact ⟨.inl idle, idle⟩
  · exact ⟨.inr last, rfl⟩
  · have inside := readStep_ok_iff.mp ⟨step, hstep⟩
    omega

theorem next_step {tables : Tables} {s s' : State} {r : Int}
    (h : owiSequenceNext tables s = .ok (r, s')) (more : r ≠ -1) :
    ∃ seq step, s.sequence = some seq ∧ ¬ (s.stop = true ∧ s.stepIdx = 0) ∧
      readStep (tables seq) r = .ok step ∧ r = (s.stepIdx + 1).tmod s.size ∧
      s' = { s with stepIdx := r, stop := s.stop || decide (step.durationMs = 0) } := by
  rcases next_cases h with ⟨-, finished, -⟩ | ⟨-, finished, -⟩ |
    ⟨seq, step, hseq, running, -, hstep, hr, moved⟩
  · exact absurd finished more
  · exact absurd finished more
  · exact ⟨seq, step, hseq, running, hstep, hr, moved⟩

theorem next_ok {tables : Tables} {s : State} (steady : Steady tables s) :
    ∃ r, owiSequenceNext tables s = .ok r := by
  by_cases stopped : s.stop = true ∧ s.stepIdx = 0
  · exact ⟨_, next_of_stopped stopped⟩
  cases hseq : s.sequence with
  | none => exact ⟨_, next_of_none hseq⟩
  | some seq =>
    obtain ⟨hsize, inside⟩ := (steady seq hseq).resolve_left stopped
    obtain ⟨step, hstep⟩ := readStep_ok_iff.mpr inside
    exact ⟨_, by rw [next_of_running hseq stopped hsize, hstep]; rfl⟩

theorem getters_ok {tables : Tables} {s s' : State} {r : Int}
    (h : owiSequenceNext tables s = .ok (r, s')) :
    ∃ cmd ms, owiSequenceGetCmd tables s' = .ok cmd ∧ owiSequenceGetMs tables s' = .ok ms := by
  rcases next_cases h with ⟨hseq, -, rfl⟩ | ⟨-, -, rfl⟩ | ⟨seq, step, hseq, -, -, hstep, -, rfl⟩
  · simp [owiSequenceGetCmd, owiSequenceGetMs, hseq]
  · simp [owiSequenceGetCmd, owiSequenceGetMs]
  · simp [owiSequenceGetCmd, owiSequenceGetMs, hseq, hstep, Except.map]

theorem tick_eq_ok {tables : Tables} {s t : State} :
    tick tables s = .ok t ↔ ∃ r, owiSequenceNext tables s = .ok (r, t) := by
  unfold tick
  cases hn : owiSequenceNext tables s with
  | error e => simp [Except.bind]
  | ok r =>
    obtain ⟨cmd, ms, hcmd, hms⟩ := getters_ok hn
    simp [Except.bind, Except.map, hcmd, hms, Prod.ext_iff]

theorem tick_ok {tables : Tables} {s : State} (steady : Steady tables s) :
    ∃ t, tick tables s = .ok t := by
  obtain ⟨r, hr⟩ := next_ok steady
  exact ⟨r.2, tick_eq_ok.mpr ⟨r.1, hr⟩⟩

theorem tick_of_none {tables : Tables} {s : State} (hseq : s.sequence = none) :
    tick tables s = .ok s :=
  tick_eq_ok.mpr ⟨-1, next_of_none hseq⟩

theorem tick_cases {tables : Tables} {s t : State} (h : tick tables s = .ok t) :
    t = s ∧ s.sequence = none ∨
    (s.stop = true ∧ s.stepIdx = 0) ∧ t = { s with sequence := none } ∨
    ∃ seq, s.sequence = some seq ∧ t.sequence = some seq ∧ t.size = s.size ∧
      0 ≤ t.stepIdx ∧ t.stepIdx < (tables seq).length := by
  obtain ⟨r, hr⟩ := tick_eq_ok.mp h
  rcases next_cases hr with ⟨hseq, -, ht⟩ | ⟨stopped, -, ht⟩ | ⟨seq, step, hseq, -, -, hstep, -, rfl⟩
  · exact .inl ⟨ht, hseq⟩
  · exact .inr (.inl ⟨stopped, ht⟩)
  · have inside := readStep_ok_iff.mp ⟨step, hstep⟩
    exact .inr (.inr ⟨seq, hseq, hseq, rfl, inside.1, inside.2⟩)

section Preempted

variable {tables : Tables}

/-- The next start is safe: either its first tick cancels it or the size left
over takes the tick to the second step. -/
def Fresh (s : State) : Prop := s.stepIdx = 0 ∧ (s.stop = true ∨ 2 ≤ s.size)

def Resting (tables : Tables) (s : State) : Prop :=
  match s.sequence with
  | none => Fresh s
  | some seq => s.size = (tables seq).length ∧ 0 ≤ s.stepIdx ∧ s.stepIdx < s.size

def At (tables : Tables) : Option Pc → Mem → Prop
  | none, m | some (.start _ .test), m | some (.stop .sequence), m | some .stopReq, m =>
    Resting tables m.vars
  | some (.start _ .sequence), m => m.vars.sequence = none ∧ Fresh m.vars
  | some (.start seq .size), m =>
    (m.vars.sequence = none ∨ m.vars.sequence = some seq) ∧ (m.ticked = false → Fresh m.vars)
  | some (.start seq .stepIdx), m =>
    (m.vars.sequence = none ∨ m.vars.sequence = some seq) ∧
      m.vars.size = (tables seq).length ∧ (m.ticked = false → m.vars.stepIdx = 0)
  | some (.start seq .stop), m =>
    (m.vars.sequence = none ∧ m.vars.stepIdx = 0 ∨ m.vars.sequence = some seq) ∧
      m.vars.size = (tables seq).length ∧ 0 ≤ m.vars.stepIdx ∧ m.vars.stepIdx < m.vars.size
  | some (.stop .stepIdx), m => m.vars.sequence = none
  | some (.stop .size), m | some (.stop .stop), m => m.vars.sequence = none ∧ m.vars.stepIdx = 0

section Resting

variable {s : State} {seq : OwiSequence}

theorem Resting.fresh (h : Resting tables s) (hseq : s.sequence = none) : Fresh s := by
  simpa [Resting, hseq] using h

theorem Resting.of_none (hseq : s.sequence = none) (h : Fresh s) : Resting tables s := by
  simpa [Resting, hseq] using h

theorem Resting.inside (h : Resting tables s) (hseq : s.sequence = some seq) :
    s.size = (tables seq).length ∧ 0 ≤ s.stepIdx ∧ s.stepIdx < s.size := by
  simpa [Resting, hseq] using h

theorem Resting.of_some (hseq : s.sequence = some seq)
    (h : s.size = (tables seq).length ∧ 0 ≤ s.stepIdx ∧ s.stepIdx < s.size) :
    Resting tables s := by
  simpa [Resting, hseq] using h

end Resting

theorem tmod_inside {i n : Int} (hi : 0 ≤ i) (hn : 0 < n) : 0 ≤ i.tmod n ∧ i.tmod n < n :=
  ⟨Int.tmod_nonneg n hi, Int.tmod_lt_of_pos i hn⟩

theorem steady_none {s : State} (hseq : s.sequence = none) : Steady tables s :=
  fun _ h => absurd (hseq.symm.trans h) (by simp)

theorem steady_inside {s : State} {seq : OwiSequence} (hseq : s.sequence = some seq)
    (hsize : s.size = (tables seq).length) (hi : 0 ≤ s.stepIdx) (hlt : s.stepIdx < s.size) :
    Steady tables s := by
  intro seq' h
  obtain rfl := Option.some.inj (hseq.symm.trans h)
  have pos : 0 < s.size := by omega
  have inside := tmod_inside (i := s.stepIdx + 1) (by omega) pos
  exact .inr ⟨by omega, inside.1, hsize ▸ inside.2⟩

/-- A fresh start ticked before its size is set does not leave its table. -/
theorem steady_fresh {s : State} {seq : OwiSequence} (long : 2 ≤ (tables seq).length)
    (hseq : s.sequence = some seq) (fresh : Fresh s) : Steady tables s := by
  intro seq' h
  obtain rfl := Option.some.inj (hseq.symm.trans h)
  rcases fresh.2 with stop | big
  · exact .inl ⟨stop, fresh.1⟩
  -- the modulus is the size of the sequence before, which is above 1 as well
  · have one : (s.stepIdx + 1).tmod s.size = 1 := by
      rw [fresh.1, Int.zero_add, Int.tmod_eq_of_lt (by decide) (by omega)]
    exact .inr ⟨by omega, by omega, by omega⟩

theorem at_steady (long : ∀ seq, 2 ≤ (tables seq).length) {pc : Option Pc} {m : Mem}
    (h : At tables pc m) (allowed : TickAllowed pc m) : Steady tables m.vars := by
  have resting : Resting tables m.vars → Steady tables m.vars := by
    intro h
    cases hseq : m.vars.sequence with
    | none => exact steady_none hseq
    | some seq =>
      obtain ⟨hsize, hi, hlt⟩ := h.inside hseq
      exact steady_inside hseq hsize hi hlt
  cases pc with
  | none => exact resting h
  | some pc =>
    have untouched : m.ticked = false := allowed.resolve_left (by simp)
    cases pc with
    | start seq pc =>
      cases pc with
      | test => exact resting h
      | sequence => exact steady_none h.1
      | size =>
        rcases h.1 with hseq | hseq
        · exact steady_none hseq
        · exact steady_fresh (long seq) hseq (h.2 untouched)
      | stepIdx =>
        rcases h.1 with hseq | hseq
        · exact steady_none hseq
        · have size := h.2.1
          have start := h.2.2 untouched
          have long := long seq
          exact steady_inside hseq size (by omega) (by omega)
      | stop =>
        rcases h.1 with ⟨hseq, -⟩ | hseq
        · exact steady_none hseq
        · exact steady_inside hseq h.2.1 h.2.2.1 h.2.2.2
    | stop pc =>
      cases pc with
      | sequence => exact resting h
      | stepIdx => exact steady_none h
      | size => exact steady_none h.1
      | stop => exact steady_none h.1
    | stopReq => exact resting h

theorem tick_resting {s t : State} (h : Resting tables s) (ht : tick tables s = .ok t) :
    Resting tables t := by
  rcases tick_cases ht with ⟨rfl, -⟩ | ⟨stopped, rfl⟩ | ⟨seq, hseq, hseq', hsize, hi, hlt⟩
  · exact h
  · exact Resting.of_none rfl ⟨stopped.2, .inl stopped.1⟩
  · have size := (h.inside hseq).1
    exact Resting.of_some hseq' ⟨hsize.trans size, hi, by omega⟩

theorem tick_keeps {s t : State} {seq : OwiSequence}
    (hseq : s.sequence = none ∨ s.sequence = some seq) (ht : tick tables s = .ok t) :
    (t.sequence = none ∨ t.sequence = some seq) ∧ t.size = s.size := by
  rcases tick_cases ht with ⟨rfl, -⟩ | ⟨-, rfl⟩ | ⟨_, same, same', hsize, -⟩
  · exact ⟨hseq, rfl⟩
  · exact ⟨.inl rfl, rfl⟩
  · exact ⟨same' ▸ same ▸ hseq, hsize⟩

theorem at_tick {pc : Option Pc} {m : Mem} {t : State} (h : At tables pc m)
    (ht : tick tables m.vars = .ok t) : At tables pc ⟨t, m.ticked || pc.isSome⟩ := by
  have unchanged : m.vars.sequence = none → t = m.vars := fun hseq =>
    (Except.ok.inj ((tick_of_none hseq).symm.trans ht)).symm
  cases pc with
  | none => exact tick_resting h ht
  | some pc =>
    cases pc with
    | start seq pc =>
      cases pc with
      | test => exact tick_resting h ht
      | sequence => exact unchanged h.1 ▸ h
      | size => exact ⟨(tick_keeps h.1 ht).1, by simp⟩
      | stepIdx =>
        have kept := tick_keeps h.1 ht
        exact ⟨kept.1, kept.2.trans h.2.1, by simp⟩
      | stop =>
        have size := h.2.1
        rcases tick_cases ht with ⟨rfl, -⟩ | ⟨stopped, rfl⟩ | ⟨seq', hseq, hseq', hsize, hi, hlt⟩
        · exact h
        · exact ⟨.inl ⟨rfl, stopped.2⟩, h.2⟩
        · have same : m.vars.sequence = some seq := h.1.resolve_left (by simp [hseq])
          obtain rfl := Option.some.inj (hseq.symm.trans same)
          exact ⟨.inr hseq', hsize.trans size, hi, by rw [hsize, size]; exact hlt⟩
    | stop pc =>
      cases pc with
      | sequence => exact tick_resting h ht
      | stepIdx => exact unchanged h ▸ h
      | size => exact unchanged h.1 ▸ h
      | stop => exact unchanged h.1 ▸ h
    | stopReq => exact tick_resting h ht

theorem at_start (long : ∀ seq, 2 ≤ (tables seq).length) {seq : OwiSequence} {pc : StartPc}
    {m : Mem} (h : At tables (some (.start seq pc)) m) :
    At tables ((owiSequenceStart tables seq pc m.vars).1.map (.start seq))
      { m with vars := (owiSequenceStart tables seq pc m.vars).2 } := by
  have long := long seq
  cases pc with
  | test =>
    by_cases hseq : m.vars.sequence = none
    · simpa [owiSequenceStart, hseq, At] using Resting.fresh h hseq
    · simpa [owiSequenceStart, hseq, At] using h
  | sequence => exact ⟨.inr rfl, fun _ => h.2⟩
  | size => exact ⟨h.1, rfl, fun untouched => (h.2 untouched).1⟩
  | stepIdx =>
    have size := h.2.1
    refine ⟨h.1.imp_left fun hseq => ⟨hseq, rfl⟩, size, Int.le_refl 0, ?_⟩
    change (0 : Int) < m.vars.size
    omega
  | stop =>
    have size := h.2.1
    rcases h.1 with ⟨hseq, start⟩ | hseq
    · refine Resting.of_none hseq ⟨start, .inr ?_⟩
      change (2 : Int) ≤ m.vars.size
      omega
    · exact Resting.of_some hseq h.2

theorem at_stop {pc : StopPc} {m : Mem} (h : At tables (some (.stop pc)) m) :
    At tables ((owiSequenceStop pc m.vars).1.map .stop)
      { m with vars := (owiSequenceStop pc m.vars).2 } := by
  cases pc with
  | sequence => rfl
  | stepIdx => exact ⟨h, rfl⟩
  | size => exact h
  | stop => exact Resting.of_none h.1 ⟨h.2, .inl rfl⟩

theorem resting_stopReq {s : State} (h : Resting tables s) :
    Resting tables (owiSequenceStopReq s) := by
  rcases Option.eq_none_or_eq_some s.sequence with hseq | ⟨seq, hseq⟩
  · exact Resting.of_none hseq ⟨(h.fresh hseq).1, .inl rfl⟩
  · exact Resting.of_some hseq (h.inside hseq)

theorem at_exec (long : ∀ seq, 2 ≤ (tables seq).length) {pc : Pc} {m : Mem}
    (h : At tables (some pc) m) : At tables (exec tables pc m.vars).1
      { m with vars := (exec tables pc m.vars).2 } := by
  cases pc with
  | start seq pc => exact at_start long h
  | stop pc => exact at_stop h
  | stopReq => exact resting_stopReq h

theorem outline (long : ∀ seq, 2 ≤ (tables seq).length) :
    (program tables).Outline (fun _ _ => True) (At tables) where
  enter := show Resting tables .initial from .of_none rfl ⟨rfl, .inl rfl⟩
  advance call pc m next h _ hs := by
    cases pc with
    | none =>
      obtain rfl := Option.some.inj hs
      cases call <;> exact h
    | some pc =>
      obtain rfl := Option.some.inj hs
      exact at_exec long h
  stable _ pc m m' h _ hs := by
    simp only [program] at hs
    split at hs
    · split at hs
      · rename_i t ht
        obtain rfl := Option.some.inj hs
        exact at_tick h ht
      · cases hs
    · cases hs

/-- In every reachable state the interrupt can advance the sequence without a
fault, and between two calls a running sequence is represented. -/
theorem preempted_represented (long : ∀ seq, 2 ≤ (tables seq).length)
    {turns : List (Turn Call Unit)} {p : Point (Option Pc) Mem}
    (hr : (program tables).machine.run (program tables).machine.initial turns = some p) :
    (TickAllowed p.pc p.mem → ∃ t, tick tables p.mem.vars = .ok t) ∧
      (p.pc = none → Represented tables p.mem.vars) := by
  have h := (outline long).always hr
  refine ⟨fun allowed => tick_ok (at_steady long h allowed), fun idle seq hseq => ?_⟩
  rw [idle] at h
  exact Resting.inside h hseq

/-- A start that a tick cancels between its first two assignments, and one that
runs. -/
def cancelledStart : List (Turn Call Unit) :=
  [.statement (.start .main), .statement .stop, .statement .stop, .interrupt (),
   .statement .stop, .statement .stop, .statement .stop,
   .statement (.start .fold), .statement .stop, .statement .stop, .interrupt (),
   .statement .stop, .statement .stop, .statement .stop, .interrupt ()]

theorem cancelledStart_represented :
    ∃ p, (program builtIn).machine.run (program builtIn).machine.initial cancelledStart = some p ∧
      p.mem.vars = ⟨some .fold, 1, 5, false⟩ ∧
      ((TickAllowed p.pc p.mem → ∃ t, tick builtIn p.mem.vars = .ok t) ∧
        (p.pc = none → Represented builtIn p.mem.vars)) :=
  have run : (program builtIn).machine.run (program builtIn).machine.initial cancelledStart =
      some ⟨none, ⟨some .fold, 1, 5, false⟩, true⟩ := rfl
  ⟨_, run, rfl, preempted_represented (fun seq => by cases seq <;> decide) run⟩

end Preempted

end MultiZone.Sequencer
