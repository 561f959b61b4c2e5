import MultiZone.Sequencer

/-! The steps a sequence issues from its start to its end, whenever it is asked to
stop: it goes round its table and ends where a round begins. -/
namespace MultiZone.Sequencer

/-- The statements of owi_sequence_start from one of them on. -/
def runStart (tables : Tables) (seq : OwiSequence) : Nat → StartPc → State → State
  | 0, _, s => s
  | n + 1, pc, s =>
    match owiSequenceStart tables seq pc s with
    | (none, s) => s
    | (some pc, s) => runStart tables seq n pc s

def start (tables : Tables) (seq : OwiSequence) (s : State) : State :=
  runStart tables seq 5 .test s

inductive Op where
  | next
  | stopReq
  deriving DecidableEq

/-- The values owi_sequence_next returns, each with the variables it leaves, and the
variables in the end. -/
def play (tables : Tables) : State → List Op → Except Fault (List (Int × State) × State)
  | s, [] => .ok ([], s)
  | s, .stopReq :: ops => play tables (owiSequenceStopReq s) ops
  | s, .next :: ops =>
    (owiSequenceNext tables s).bind fun r =>
      (play tables r.2 ops).map fun rest => (r :: rest.1, rest.2)

def calls (ops : List Op) : Nat := ops.count .next

def requested : List Op → Nat → Bool
  | [], _ => false
  | .stopReq :: _, _ => true
  | .next :: _, 0 => false
  | .next :: ops, e + 1 => requested ops e

def ZeroStep (table : List SequenceStep) (i : Nat) : Prop :=
  table[i]?.map SequenceStep.durationMs = some 0

instance (table : List SequenceStep) (i : Nat) : Decidable (ZeroStep table i) :=
  inferInstanceAs (Decidable (_ = _))

/-- The call is made at step 0 after a stop request or after the calls before it have
reached a step of duration 0. -/
def Ends (table : List SequenceStep) (ops : List Op) (call : Nat) : Prop :=
  call % table.length = 0 ∧
    (requested ops call = true ∨ ∃ j < call, ZeroStep table ((j + 1) % table.length))

/-- The same, when `c` calls have been made before the operations. -/
def EndsFrom (table : List SequenceStep) (c : Nat) (stop : Bool) (ops : List Op) (call : Nat) :
    Prop :=
  (c + call) % table.length = 0 ∧
    (stop = true ∨ requested ops call = true ∨
      ∃ j < call, ZeroStep table ((c + j + 1) % table.length))

instance (table : List SequenceStep) (ops : List Op) (call : Nat) :
    Decidable (Ends table ops call) := inferInstanceAs (Decidable (_ ∧ _))

instance (table : List SequenceStep) (c : Nat) (stop : Bool) (ops : List Op) (call : Nat) :
    Decidable (EndsFrom table c stop ops call) := inferInstanceAs (Decidable (_ ∧ _))

/-- A sequence after `c` calls. -/
def running (tables : Tables) (seq : OwiSequence) (c : Nat) (stop : Bool) : State :=
  ⟨some seq, (c % (tables seq).length : Nat), (tables seq).length, stop⟩

def flag (table : List SequenceStep) (c : Nat) (stop : Bool) (ops : List Op) (call : Nat) : Bool :=
  stop || requested ops call || decide (∃ j ≤ call, ZeroStep table ((c + j + 1) % table.length))

/-- What a call returns and leaves, from the `c`-th one on. -/
def Answers (tables : Tables) (seq : OwiSequence) (c : Nat) (stop : Bool) (ops : List Op)
    (k : Nat) (r : Int × State) : Prop :=
  if ∃ e ≤ k, EndsFrom (tables seq) c stop ops e then r.1 = -1 ∧ r.2.sequence = none
  else r.1 = ((c + k + 1) % (tables seq).length : Nat) ∧
    r.2 = running tables seq (c + k + 1) (flag (tables seq) c stop ops k)

section Rounds

variable {tables : Tables} {seq : OwiSequence} {c : Nat} {stop : Bool} {ops : List Op}

theorem start_running {s : State} (idle : s.sequence = none) :
    start tables seq s = running tables seq 0 false := by
  simp [start, runStart, owiSequenceStart, idle, running]

theorem next_running (nonempty : tables seq ≠ [])
    (on : ¬ (stop = true ∧ c % (tables seq).length = 0)) :
    owiSequenceNext tables (running tables seq c stop) =
      .ok (((c + 1) % (tables seq).length : Nat), running tables seq (c + 1)
        (stop || decide (ZeroStep (tables seq) ((c + 1) % (tables seq).length)))) := by
  have size : 0 < (tables seq).length := List.length_pos_iff.mpr nonempty
  have inside : (c + 1) % (tables seq).length < (tables seq).length := Nat.mod_lt _ size
  have next : ((running tables seq c stop).stepIdx + 1).tmod (running tables seq c stop).size =
      ((c + 1) % (tables seq).length : Nat) := by
    rw [← Nat.mod_add_mod]
    rfl
  have read : readStep (tables seq) ((c + 1) % (tables seq).length : Nat) =
      .ok (tables seq)[(c + 1) % (tables seq).length] := by
    rw [readStep, if_neg (by omega), Int.toNat_natCast, List.getElem?_eq_getElem inside]
  have on' : ¬ ((running tables seq c stop).stop = true ∧
      (running tables seq c stop).stepIdx = 0) :=
    fun last => on ⟨last.1, Int.ofNat_inj.mp last.2⟩
  have sized : (running tables seq c stop).size ≠ 0 := by
    change ((tables seq).length : Int) ≠ 0
    omega
  rw [next_of_running (rfl : (running tables seq c stop).sequence = some seq) on' sized, next, read]
  simp [Except.map, running, ZeroStep, List.getElem?_eq_getElem inside]

theorem next_last (last : stop = true ∧ c % (tables seq).length = 0) :
    owiSequenceNext tables (running tables seq c stop) =
      .ok (-1, { running tables seq c stop with sequence := none }) :=
  next_of_stopped ⟨last.1, congrArg Int.ofNat last.2⟩

theorem calls_next : calls (.next :: ops) = calls ops + 1 := List.count_cons_self

theorem calls_stopReq : calls (.stopReq :: ops) = calls ops :=
  List.count_cons_of_ne (fun same => (by cases same))

theorem play_next {s t : State} {r : Int × State} {rs : List (Int × State)}
    (first : owiSequenceNext tables s = .ok r) (rest : play tables r.2 ops = .ok (rs, t)) :
    play tables s (.next :: ops) = .ok (r :: rs, t) := by
  rw [play, first, Except.bind, rest, Except.map]

theorem play_idle {s : State} (idle : s.sequence = none) (ops : List Op) :
    ∃ rs t, play tables s ops = .ok (rs, t) ∧ t.sequence = none ∧ rs.length = calls ops ∧
      ∀ r ∈ rs, r.1 = -1 ∧ r.2.sequence = none := by
  induction ops generalizing s with
  | nil => exact ⟨[], s, rfl, idle, rfl, fun r inside => (by cases inside)⟩
  | cons op ops ih =>
    cases op with
    | stopReq =>
      rw [calls_stopReq]
      exact @ih (owiSequenceStopReq s) idle
    | next =>
      obtain ⟨rs, t, played, ended, count, all⟩ := ih idle
      refine ⟨_, t, play_next (next_of_none idle) played, ended, ?_, ?_⟩
      · rw [List.length_cons, count, calls_next]
      · exact List.forall_mem_cons.mpr ⟨⟨rfl, idle⟩, all⟩

theorem endsFrom_stopReq {table : List SequenceStep} {e : Nat} :
    EndsFrom table c stop (.stopReq :: ops) e ↔ EndsFrom table c true ops e := by
  simp [EndsFrom, requested]

theorem endsFrom_zero {table : List SequenceStep} :
    EndsFrom table c stop (.next :: ops) 0 ↔ stop = true ∧ c % table.length = 0 := by
  simp [EndsFrom, requested, and_comm]

/-- A call that does not end the run leaves the rest of it to the calls behind it. -/
theorem endsFrom_next {table : List SequenceStep} {e : Nat} :
    EndsFrom table c stop (.next :: ops) (e + 1) ↔ EndsFrom table (c + 1)
      (stop || decide (ZeroStep table ((c + 1) % table.length))) ops e := by
  have later : (∃ j < e + 1, ZeroStep table ((c + j + 1) % table.length)) ↔
      ZeroStep table ((c + 1) % table.length) ∨
        ∃ j < e, ZeroStep table ((c + 1 + j + 1) % table.length) := by
    have shift : ∀ j, c + (j + 1) + 1 = c + 1 + j + 1 := by omega
    rw [Nat.exists_lt_succ_left]
    simp only [Nat.add_zero, shift]
  unfold EndsFrom
  rw [later, Nat.add_right_comm c 1 e, ← Nat.add_assoc, requested, Bool.or_eq_true,
    decide_eq_true_eq]
  constructor
  · rintro ⟨zero, stopped | request | now | reached⟩
    · exact ⟨zero, .inl (.inl stopped)⟩
    · exact ⟨zero, .inr (.inl request)⟩
    · exact ⟨zero, .inl (.inr now)⟩
    · exact ⟨zero, .inr (.inr reached)⟩
  · rintro ⟨zero, (stopped | now) | request | reached⟩
    · exact ⟨zero, .inl stopped⟩
    · exact ⟨zero, .inr (.inr (.inl now))⟩
    · exact ⟨zero, .inr (.inl request)⟩
    · exact ⟨zero, .inr (.inr (.inr reached))⟩

theorem answers_stopReq {k : Nat} {r : Int × State} :
    Answers tables seq c stop (.stopReq :: ops) k r ↔ Answers tables seq c true ops k r := by
  simp only [Answers, endsFrom_stopReq, flag, requested, Bool.or_true, Bool.true_or]

theorem answers_last (last : stop = true ∧ c % (tables seq).length = 0) {k : Nat}
    {r : Int × State} (ended : r.1 = -1 ∧ r.2.sequence = none) :
    Answers tables seq c stop (.next :: ops) k r := by
  unfold Answers
  rw [if_pos ⟨0, Nat.zero_le k, endsFrom_zero.mpr last⟩]
  exact ended

theorem answers_first (on : ¬ (stop = true ∧ c % (tables seq).length = 0)) :
    Answers tables seq c stop (.next :: ops) 0 ((((c + 1) % (tables seq).length : Nat) : Int),
      running tables seq (c + 1)
        (stop || decide (ZeroStep (tables seq) ((c + 1) % (tables seq).length)))) := by
  have goes_on : ¬ ∃ e ≤ 0, EndsFrom (tables seq) c stop (.next :: ops) e := by
    rintro ⟨e, first, ends⟩
    obtain rfl := Nat.le_zero.mp first
    exact on (endsFrom_zero.mp ends)
  unfold Answers
  rw [if_neg goes_on]
  simp [flag, requested]

theorem answers_next (on : ¬ (stop = true ∧ c % (tables seq).length = 0)) {k : Nat}
    {r : Int × State} : Answers tables seq c stop (.next :: ops) (k + 1) r ↔
      Answers tables seq (c + 1)
        (stop || decide (ZeroStep (tables seq) ((c + 1) % (tables seq).length))) ops k r := by
  have shift : ∀ j, c + (j + 1) + 1 = c + 1 + j + 1 := by omega
  have ends : (∃ e ≤ k + 1, EndsFrom (tables seq) c stop (.next :: ops) e) ↔
      ∃ e ≤ k, EndsFrom (tables seq) (c + 1)
        (stop || decide (ZeroStep (tables seq) ((c + 1) % (tables seq).length))) ops e := by
    simp only [← Nat.lt_succ_iff, Nat.exists_lt_succ_left, endsFrom_zero, endsFrom_next, on,
      false_or]
  have flags : flag (tables seq) c stop (.next :: ops) (k + 1) = flag (tables seq) (c + 1)
      (stop || decide (ZeroStep (tables seq) ((c + 1) % (tables seq).length))) ops k := by
    simp only [flag, requested, ← Nat.lt_succ_iff, Nat.exists_lt_succ_left, Bool.decide_or, shift,
      Nat.add_zero]
    ac_rfl
  simp only [Answers, ends, flags, shift]

theorem play_running (nonempty : tables seq ≠ []) :
    ∃ rs t, play tables (running tables seq c stop) ops = .ok (rs, t) ∧
      rs.length = calls ops ∧ (∀ k r, rs[k]? = some r → Answers tables seq c stop ops k r) ∧
      (owiSequenceIsRunning t = true ↔
        ¬ ∃ e < calls ops, EndsFrom (tables seq) c stop ops e) := by
  induction ops generalizing c stop with
  | nil => exact ⟨[], _, rfl, rfl, by simp, by simp [owiSequenceIsRunning, running, calls]⟩
  | cons op ops ih =>
    cases op with
    | stopReq =>
      obtain ⟨rs, t, played, count, answers, ends⟩ := @ih c true
      simp only [calls_stopReq, endsFrom_stopReq, answers_stopReq]
      exact ⟨rs, t, played, count, answers, ends⟩
    | next =>
      rw [calls_next]
      by_cases last : stop = true ∧ c % (tables seq).length = 0
      · obtain ⟨rs, t, played, ended, count, all⟩ := @play_idle tables
          { running tables seq c stop with sequence := none } rfl ops
        refine ⟨_, t, play_next (next_last last) played, ?_, fun k r entry => ?_, ?_⟩
        · rw [List.length_cons, count]
        · apply answers_last last
          rcases List.mem_cons.mp (List.mem_of_getElem? entry) with rfl | later
          · exact ⟨rfl, rfl⟩
          · exact all r later
        · rw [owiSequenceIsRunning, ended]
          simp only [Option.isSome_none, Bool.false_eq_true, false_iff, Decidable.not_not]
          exact ⟨0, Nat.zero_lt_succ _, endsFrom_zero.mpr last⟩
      · obtain ⟨rs, t, played, count, answers, ends⟩ := @ih (c + 1)
          (stop || decide (ZeroStep (tables seq) ((c + 1) % (tables seq).length)))
        have first := next_running nonempty last
        refine ⟨_, t, play_next first played, ?_, fun k r entry => ?_, ends.trans ?_⟩
        · rw [List.length_cons, count]
        · cases k with
          | zero =>
            obtain rfl := Option.some.inj entry
            exact answers_first last
          | succ k => exact (answers_next last).mpr (answers k r entry)
        · rw [Nat.exists_lt_succ_left]
          simp only [endsFrom_zero, endsFrom_next, last, false_or]

theorem endsFrom_start {table : List SequenceStep} {e : Nat} :
    EndsFrom table 0 false ops e ↔ Ends table ops e := by
  simp [EndsFrom, Ends]

/-- The steps come in turn up to the first call that is made at step 0 after a stop
request or a step of duration 0; there the run ends, after step 0 if any was issued. -/
theorem ends_at_round {s : State} (idle : s.sequence = none) (nonempty : tables seq ≠ [])
    (ops : List Op) :
    ∃ rs t, play tables (start tables seq s) ops = .ok (rs, t) ∧ rs.length = calls ops ∧
      (∀ k r, rs[k]? = some r → r.1 = if ∃ e ≤ k, Ends (tables seq) ops e then (-1 : Int)
        else ((k + 1) % (tables seq).length : Nat)) ∧
      (owiSequenceIsRunning t = true ↔ ¬ ∃ e < calls ops, Ends (tables seq) ops e) ∧
      ∀ k r next, rs[k]? = some r → rs[k + 1]? = some next → next.1 = -1 →
        r.1 = 0 ∨ r.1 = -1 := by
  obtain ⟨rs, t, played, count, answers, ends⟩ := @play_running tables seq 0 false ops nonempty
  have returns : ∀ k r, rs[k]? = some r → r.1 =
      if ∃ e ≤ k, Ends (tables seq) ops e then (-1 : Int)
      else ((k + 1) % (tables seq).length : Nat) := by
    intro k r entry
    have answer := answers k r entry
    simp only [Answers, endsFrom_start, Nat.zero_add] at answer
    split at answer
    · rename_i ended
      rw [if_pos ended]
      exact answer.1
    · rename_i goes_on
      rw [if_neg goes_on]
      exact answer.1
  simp only [endsFrom_start] at ends
  refine ⟨rs, t, by rw [start_running idle]; exact played, count, returns, ends, ?_⟩
  intro k r next entry following last
  rw [returns (k + 1) next following] at last
  rw [returns k r entry]
  by_cases before : ∃ e ≤ k, Ends (tables seq) ops e
  · exact .inr (if_pos before)
  · rw [if_neg before]
    split at last
    · rename_i now
      obtain ⟨e, le, ends_here⟩ := now
      have here : e = k + 1 := by
        rcases Nat.le_succ_iff.mp le with earlier | same
        · exact absurd ⟨e, earlier, ends_here⟩ before
        · exact same
      rw [here] at ends_here
      exact .inl (congrArg Int.ofNat ends_here.1)
    · omega

/-- A stop request in the first round of the built-in table, whose step 0 lasts. -/
theorem ends_at_round_main :
    ∃ rs t, play builtIn (start builtIn .main .initial)
        (.next :: .stopReq :: List.replicate 15 .next) = .ok (rs, t) ∧ rs.length = 16 ∧
      (∀ r, rs[13]? = some r → r.1 = 0) ∧ (∀ r, rs[14]? = some r → r.1 = -1) ∧
      owiSequenceIsRunning t = false := by
  obtain ⟨rs, t, played, count, returns, ends, -⟩ := @ends_at_round builtIn .main .initial rfl
    (by decide) (.next :: .stopReq :: List.replicate 15 .next)
  refine ⟨rs, t, played, count, ?_, ?_, ?_⟩
  · intro r entry
    rw [returns 13 r entry]
    decide
  · intro r entry
    rw [returns 14 r entry]
    decide
  · rw [← Bool.not_eq_true, ends]
    decide

end Rounds

end MultiZone.Sequencer
