import MultiZone.Sequencer.Rounds
import MultiZone.Robot.Model

/-! The light of the robot while a sequence runs. It is on in every command but those
issued with the stop flag set, and so it stays on when the flag comes too late. -/
namespace MultiZone.Robot
open Sequencer

/-- robot_seq_task with the device connected, and the command it transmits. -/
def seqTask (tables : Tables) (s : State) : Except Fault (Option (BitVec 32) × State) :=
  (owiSequenceNext tables s).bind fun r =>
    if r.1 = -1 then .ok (none, r.2)
    else (owiSequenceGetCmd tables r.2).bind fun cmd =>
      (owiSequenceGetMs tables r.2).map fun _ => (some cmd, r.2)

def playTasks (tables : Tables) :
    State → List Op → Except Fault (List (Option (BitVec 32)) × State)
  | s, [] => .ok ([], s)
  | s, .stopReq :: ops => playTasks tables (owiSequenceStopReq s) ops
  | s, .next :: ops =>
    (seqTask tables s).bind fun r =>
      (playTasks tables r.2 ops).map fun rest => (r.1 :: rest.1, rest.2)

/-- Bit 16 is clear in the last command once owi_sequence_next has returned -1. -/
def LightOut (sent : List (Option (BitVec 32))) : Prop :=
  none ∈ sent → ∀ cmd, (sent.filterMap id).getLast? = some cmd → cmd.getLsbD 16 = false

/-- No step has duration 0, and the first stop request comes when the last command of a
round has been issued and the next call has not been made. -/
def LateRequest (table : List SequenceStep) (ops : List Op) : Prop :=
  (∀ i < table.length, ¬ ZeroStep table i) ∧ ∃ e < calls ops, 0 < e ∧ e % table.length = 0 ∧
    requested ops (e - 1) = false ∧ requested ops e = true

/-- The task of the application is this one, its writes going out at once. -/
theorem robotSeqTask_eq {t : Tick} {m : Mem} {cmd : Option (BitVec 32)} {vars : State}
    (connected : m.usbState = .connected) (ready : t.seqCep.ready = true)
    (h : seqTask builtIn m.vars = .ok (cmd, vars)) :
    ∃ r, robotSeqTask t m = .ok r ∧ r.1.vars = vars ∧ r.1.sent = cmd.or m.sent := by
  unfold seqTask at h
  unfold robotSeqTask
  rw [connected]
  dsimp only
  cases hn : owiSequenceNext builtIn m.vars with
  | error fault =>
    rw [hn] at h
    cases h
  | ok r =>
    obtain ⟨cmd', ms, hcmd, hms⟩ := getters_ok hn
    simp only [hn, Except.bind, hcmd, hms, Except.map] at h ⊢
    by_cases ended : r.1 = -1
    · simp only [ended, if_true] at h ⊢
      cases h
      exact ⟨_, rfl, rfl, rfl⟩
    · simp only [ended, if_false] at h ⊢
      cases h
      refine ⟨_, rfl, ?_, ?_⟩
      · simp [Mem.usbWrite, ready, Mem.startControlXfr, Mem.called]
      · simp [Mem.usbWrite, ready, Mem.startControlXfr]

def transmitted (tables : Tables) (r : Int × State) : Option (BitVec 32) :=
  if r.1 = -1 then none else (owiSequenceGetCmd tables r.2).toOption

theorem seqTask_eq (tables : Tables) (s : State) : seqTask tables s =
    (owiSequenceNext tables s).map fun r => (transmitted tables r, r.2) := by
  unfold seqTask
  cases hn : owiSequenceNext tables s with
  | error fault => rfl
  | ok r =>
    obtain ⟨cmd, ms, hcmd, hms⟩ := getters_ok hn
    simp only [Except.bind, hcmd, hms, Except.map, transmitted]
    split <;> rfl

theorem playTasks_eq {tables : Tables} {s t : State} {ops : List Op} {rs : List (Int × State)}
    (played : play tables s ops = .ok (rs, t)) :
    playTasks tables s ops = .ok (rs.map (transmitted tables), t) := by
  induction ops generalizing s rs with
  | nil =>
    cases played
    rfl
  | cons op ops ih =>
    cases op with
    | stopReq => exact ih played
    | next =>
      unfold play at played
      unfold playTasks
      rw [seqTask_eq]
      cases hn : owiSequenceNext tables s with
      | error fault =>
        rw [hn] at played
        cases played
      | ok r =>
        simp only [hn, Except.bind] at played
        cases rest : play tables r.2 ops with
        | error fault =>
          rw [rest] at played
          cases played
        | ok later =>
          rw [rest] at played
          cases played
          simp only [Except.map, Except.bind, ih rest, List.map_cons]

theorem lit_light (stop : Bool) (cmd : BitVec 32) : (lit stop cmd).getLsbD 16 = !stop := by
  cases stop <;> simp [lit]

theorem last_transmitted {α : Type} {sent : List (Option α)} {e : Nat} {cmd : α}
    (last : sent[e]? = some (some cmd)) (after : ∀ k o, e < k → sent[k]? = some o → o = none) :
    (sent.filterMap id).getLast? = some cmd := by
  obtain ⟨inside, at_e⟩ := List.getElem?_eq_some_iff.mp last
  have behind : (sent.drop (e + 1)).filterMap id = [] := by
    rw [List.filterMap_eq_nil_iff]
    intro o mem
    obtain ⟨k, entry⟩ := List.mem_iff_getElem?.mp mem
    rw [List.getElem?_drop] at entry
    exact after (e + 1 + k) o (by omega) entry
  have split : sent = sent.take e ++ some cmd :: sent.drop (e + 1) := by
    rw [← at_e, ← List.drop_eq_getElem_cons inside, List.take_append_drop]
  rw [split, List.filterMap_append, List.filterMap_cons, behind]
  simp

theorem requested_mono {ops : List Op} {k e : Nat} (le : k ≤ e)
    (before : requested ops k = true) : requested ops e = true := by
  induction ops generalizing k e with
  | nil => cases before
  | cons op ops ih =>
    cases op with
    | stopReq => rfl
    | next =>
      cases k with
      | zero => cases before
      | succ k =>
        cases e with
        | zero => exact absurd le (Nat.not_succ_le_zero k)
        | succ e => exact ih (Nat.le_of_succ_le_succ le) before

structure Transmits (table : List SequenceStep) (ops : List Op)
    (sent : List (Option (BitVec 32))) : Prop where
  length : sent.length = calls ops
  running : ∀ k < calls ops, (∀ e ≤ k, ¬ Ends table ops e) →
    ∃ cmd, sent[k]? = some (some (lit (flag table 0 false ops k) cmd))
  ended : ∀ (k : Nat) o e, e ≤ k → Ends table ops e → sent[k]? = some o → o = none

section Commands

variable {tables : Tables} {seq : OwiSequence} {ops : List Op} {k : Nat} {r : Int × State}

theorem transmitted_ended (answer : Answers tables seq 0 false ops k r)
    (ended : ∃ e ≤ k, EndsFrom (tables seq) 0 false ops e) : transmitted tables r = none := by
  unfold Answers at answer
  rw [if_pos ended] at answer
  exact if_pos answer.1

theorem transmitted_running (nonempty : tables seq ≠ [])
    (answer : Answers tables seq 0 false ops k r)
    (goes_on : ¬ ∃ e ≤ k, EndsFrom (tables seq) 0 false ops e) :
    ∃ cmd, transmitted tables r = some (lit (flag (tables seq) 0 false ops k) cmd) := by
  have inside : (0 + k + 1) % (tables seq).length < (tables seq).length :=
    Nat.mod_lt _ (List.length_pos_iff.mpr nonempty)
  unfold Answers at answer
  rw [if_neg goes_on] at answer
  obtain ⟨step, read⟩ := readStep_ok_iff.mpr
    ⟨Int.natCast_nonneg ((0 + k + 1) % (tables seq).length), Int.ofNat_lt.mpr inside⟩
  refine ⟨step.command, ?_⟩
  rw [transmitted, if_neg (by omega), answer.2]
  simp only [owiSequenceGetCmd, running, read, Except.map, Except.toOption]

theorem tasks_transmit {s : State} (idle : s.sequence = none) (nonempty : tables seq ≠ [])
    (ops : List Op) : ∃ sent t, playTasks tables (start tables seq s) ops = .ok (sent, t) ∧
      Transmits (tables seq) ops sent := by
  obtain ⟨rs, t, played, count, answers, -⟩ := @play_running tables seq 0 false ops nonempty
  rw [← start_running idle] at played
  refine ⟨_, t, playTasks_eq played, ?_, ?_, ?_⟩
  · rw [List.length_map, count]
  · intro k inside goes_on
    have at_k := List.getElem?_eq_getElem (show k < rs.length by rw [count]; exact inside)
    obtain ⟨cmd, sent⟩ := transmitted_running nonempty (answers k _ at_k)
      fun ⟨e, le, ends⟩ => goes_on e le (endsFrom_start.mp ends)
    exact ⟨cmd, by rw [List.getElem?_map, at_k, Option.map_some, sent]⟩
  · intro k o e le ends at_k
    rw [List.getElem?_map] at at_k
    obtain ⟨r, found, rfl⟩ := Option.map_eq_some_iff.mp at_k
    exact transmitted_ended (answers k r found) ⟨e, le, endsFrom_start.mpr ends⟩

end Commands

section Light

variable {table : List SequenceStep} {ops : List Op} {sent : List (Option (BitVec 32))}

theorem Transmits.unended (h : Transmits table ops sent)
    (goes_on : ¬ ∃ e < calls ops, Ends table ops e) : none ∉ sent := by
  intro none_sent
  obtain ⟨k, at_k⟩ := List.mem_iff_getElem?.mp none_sent
  have inside := (List.getElem?_eq_some_iff.mp at_k).1
  rw [h.length] at inside
  obtain ⟨cmd, issued⟩ := h.running k inside fun e le ends =>
    goes_on ⟨e, Nat.lt_of_le_of_lt le inside, ends⟩
  rw [at_k] at issued
  cases issued

theorem Transmits.reaches (h : Transmits table ops sent) {e : Nat} (inside : e < calls ops)
    (ends : Ends table ops e) : none ∈ sent := by
  have at_e := List.getElem?_eq_getElem (show e < sent.length by rw [h.length]; exact inside)
  rw [h.ended e _ e (Nat.le_refl e) ends at_e] at at_e
  exact List.mem_of_getElem? at_e

theorem Transmits.atOnce (h : Transmits table ops sent) (ends : Ends table ops 0) :
    sent.filterMap id = [] := by
  rw [List.filterMap_eq_nil_iff]
  intro o mem
  obtain ⟨k, at_k⟩ := List.mem_iff_getElem?.mp mem
  exact h.ended k o 0 (Nat.zero_le k) ends at_k

theorem Transmits.last (h : Transmits table ops sent) {e : Nat} (inside : e + 1 < calls ops)
    (ends : Ends table ops (e + 1)) (first : ∀ k ≤ e, ¬ Ends table ops k) :
    ∃ cmd, (sent.filterMap id).getLast? = some (lit (flag table 0 false ops e) cmd) := by
  obtain ⟨cmd, issued⟩ := h.running e (Nat.lt_of_succ_lt inside) first
  exact ⟨cmd, last_transmitted issued fun k o behind at_k => h.ended k o (e + 1) behind ends at_k⟩

theorem lightOut_last {stop : Bool} {cmd : BitVec 32} (none_sent : none ∈ sent)
    (last : (sent.filterMap id).getLast? = some (lit stop cmd)) :
    LightOut sent ↔ stop = true := by
  constructor
  · intro out
    have dark := out none_sent _ last
    rw [lit_light, Bool.not_eq_false'] at dark
    exact dark
  · intro stopped _ cmd' last'
    rw [last, Option.some_inj] at last'
    rw [← last', lit_light, stopped]
    rfl

theorem unended_notLate (goes_on : ¬ ∃ e < calls ops, Ends table ops e) :
    ¬ LateRequest table ops := by
  rintro ⟨-, late, inside, -, round, -, asked⟩
  exact goes_on ⟨late, inside, round, .inl asked⟩

theorem atOnce_notLate (ends : Ends table ops 0) : ¬ LateRequest table ops := by
  rintro ⟨lasting, late, -, -, -, unasked, -⟩
  rcases ends.2 with request | ⟨j, before, -⟩
  · rw [requested_mono (Nat.zero_le _) request] at unasked
    cases unasked
  · exact absurd before (Nat.not_lt_zero j)

theorem late_iff (nonempty : table ≠ []) {e : Nat} (inside : e + 1 < calls ops)
    (ends : Ends table ops (e + 1))
    (first : ∀ k ≤ e, ¬ Ends table ops k) :
    flag table 0 false ops e = false ↔ LateRequest table ops := by
  have size : 0 < table.length := List.length_pos_iff.mpr nonempty
  unfold flag
  simp only [Bool.false_or, Bool.or_eq_false_iff, decide_eq_false_iff_not, Nat.zero_add]
  constructor
  · rintro ⟨unasked, unmarked⟩
    have unmarked' : ¬ ∃ j < e + 1, ZeroStep table ((j + 1) % table.length) := by
      rintro ⟨j, le, zero⟩
      exact unmarked ⟨j, Nat.lt_succ_iff.mp le, zero⟩
    refine ⟨fun i in_table zero => unmarked ?_, e + 1, inside, Nat.succ_pos e, ends.1, unasked,
      ends.2.resolve_right unmarked'⟩
    -- a whole round has been made, so the step has been reached
    have round : table.length ≤ e + 1 :=
      Nat.le_of_dvd (Nat.succ_pos e) (Nat.dvd_of_mod_eq_zero ends.1)
    cases i with
    | zero =>
      refine ⟨table.length - 1, by omega, ?_⟩
      rw [Nat.sub_add_cancel size, Nat.mod_self]
      exact zero
    | succ i =>
      refine ⟨i, by omega, ?_⟩
      rw [Nat.mod_eq_of_lt in_table]
      exact zero
  · rintro ⟨lasting, late, -, positive, round, unasked, asked⟩
    have unmarked : ∀ n, ¬ ∃ j ≤ n, ZeroStep table ((j + 1) % table.length) :=
      fun n ⟨j, _, zero⟩ => lasting _ (Nat.mod_lt _ size) zero
    have same : late = e + 1 := by
      rcases Nat.lt_trichotomy late (e + 1) with before | same | behind
      · exact absurd ⟨round, .inl asked⟩ (first late (Nat.lt_succ_iff.mp before))
      · exact same
      · rcases ends.2 with request | ⟨j, _, zero⟩
        · rw [requested_mono (Nat.le_sub_one_of_lt behind) request] at unasked
          cases unasked
        · exact absurd zero (lasting _ (Nat.mod_lt _ size))
    subst same
    exact ⟨unasked, unmarked e⟩

theorem Transmits.lightOut (h : Transmits table ops sent) (nonempty : table ≠ []) :
    LightOut sent ↔ ¬ LateRequest table ops := by
  by_cases some_end : ∃ e < calls ops, Ends table ops e
  · obtain ⟨inside, ends⟩ := Nat.find_spec some_end
    have earlier : ∀ k < Nat.find some_end, ¬ Ends table ops k := fun k before ends =>
      Nat.find_min some_end before ⟨Nat.lt_trans before inside, ends⟩
    generalize Nat.find some_end = e at inside ends earlier
    have none_sent := h.reaches inside ends
    cases e with
    | zero =>
      refine iff_of_true (fun _ cmd last => ?_) (atOnce_notLate ends)
      rw [h.atOnce ends] at last
      cases last
    | succ e =>
      have first : ∀ k ≤ e, ¬ Ends table ops k := fun k le => earlier k (Nat.lt_succ_of_le le)
      obtain ⟨cmd, last⟩ := h.last inside ends first
      rw [lightOut_last none_sent last, ← late_iff nonempty inside ends first,
        Bool.not_eq_false]
  · refine iff_of_true (fun none_sent => ?_) (unended_notLate some_end)
    exact absurd none_sent (h.unended some_end)

end Light

/-- The light goes out exactly if the first stop request does not come after the last
command of a round in a table without steps of duration 0. -/
theorem lightOut_iff {tables : Tables} {seq : OwiSequence} {s : State}
    (idle : s.sequence = none) (nonempty : tables seq ≠ []) (ops : List Op) :
    ∃ sent t, playTasks tables (start tables seq s) ops = .ok (sent, t) ∧
      (LightOut sent ↔ ¬ LateRequest (tables seq) ops) := by
  obtain ⟨sent, t, played, transmits⟩ := tasks_transmit idle nonempty ops
  exact ⟨sent, t, played, transmits.lightOut nonempty⟩

theorem unfold_light :
    ∃ sent t, playTasks builtIn (start builtIn .unfold .initial) (List.replicate 6 .next) =
      .ok (sent, t) ∧ none ∈ sent ∧ LightOut sent := by
  obtain ⟨sent, t, played, out⟩ := @lightOut_iff builtIn .unfold .initial rfl (by decide)
    (List.replicate 6 .next)
  refine ⟨sent, t, played, ?_, out.mpr (by unfold LateRequest; decide)⟩
  cases played
  decide

/-- A stop request after the whole of the main sequence has been issued once. -/
def lateStop : List Op := List.replicate 14 .next ++ [.stopReq, .next]

theorem lateStop_light :
    ∃ sent t, playTasks builtIn (start builtIn .main .initial) lateStop = .ok (sent, t) ∧
      sent[13]? = some (some 0x010000) ∧ sent[14]? = some none ∧ ¬ LightOut sent := by
  refine ⟨_, _, rfl, rfl, rfl, fun out => ?_⟩
  have dark := out (by decide) 0x010000 rfl
  exact absurd dark (by decide)

end MultiZone.Robot
