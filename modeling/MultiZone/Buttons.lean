import MultiZone.Transition.Machine
import MultiZone.Boot.Report
import Mathlib.Data.UInt

/-! The two buttons of zone 3. Each press that is not a bounce is counted, and every zone
is sent a text with the count in it. -/
namespace MultiZone.Buttons
open Transition
open Boot (Overrun)

inductive Button where
  | sw2
  | sw3
  deriving DecidableEq, Repr

def Button.literal : Button → List Byte
  | .sw2 => ascii ['I', 'R', 'Q', ' ', 'S', 'W', '2', ' ', '(']
  | .sw3 => ascii ['I', 'R', 'Q', ' ', 'S', 'W', '3', ' ', '(']

def rtcFreq : UInt64 := 1000000

def put (msg : Message) (k : Nat) (bytes : List Byte) : Except Overrun Message :=
  if fits : k + bytes.length ≤ 16 then
    .ok ⟨msg.bytes.take k ++ bytes ++ msg.bytes.drop (k + bytes.length), by
      rw [List.length_append, List.length_append, List.length_take, List.length_drop, msg.size]
      omega⟩
  else .error .overrun

def decimal (value : Nat) : List Byte := ascii (Boot.utoa value)

def utoa (value : UInt32) (msg : Message) (k : Nat) : Except Overrun Message :=
  put msg k (decimal value.toNat ++ [0])

def strcat (msg : Message) (text : List Byte) : Except Overrun Message :=
  put msg (cstring msg.bytes).length (text ++ [0])

def message (b : Button) (count : UInt32) : Except Overrun Message :=
  (utoa count (.ofText b.literal) 9).bind fun msg => strcat msg (ascii [')'])

/-- The static variables of the handler. `sent` are the calls of MZONE_SEND, and
`presses` the buttons whose press was accepted, the last one first. -/
structure Statics where
  debounce : Button → UInt64
  count : Button → UInt32
  sent : List (Fin 8 × Message)
  presses : List Button

def Statics.initial : Statics := ⟨fun _ => 0, fun _ => 0, [], []⟩

def toZones (msg : Message) : List (Fin 8 × Message) := (List.finRange 8).map (·, msg)

def Statics.pressed (s : Statics) (b : Button) (time : UInt64) (msg : Message) : Statics where
  debounce := Function.update s.debounce b (time + 200 * rtcFreq / 1000)
  count := Function.update s.count b (s.count b + 1)
  sent := s.sent ++ toZones msg
  presses := b :: s.presses

/-- An interrupt of the PLIC: its source, none if it is not a button, and the time. -/
structure Irq where
  source : Option Button
  time : UInt64

def plicHandler (irq : Irq) (s : Statics) : Except Overrun Statics :=
  match irq.source with
  | none => .ok s
  | some b =>
    if irq.time > s.debounce b then (message b (s.count b)).map (s.pressed b irq.time)
    else .ok s

/-- Once msg has been overrun nothing is known any more. -/
def plic : Machine (Except Overrun Statics) Irq where
  initial := .ok .initial
  step s irq := some (s.bind (plicHandler irq))

def text (b : Button) (count : Nat) : List Byte := b.literal ++ decimal count ++ ascii [')']

/-- All that should be sent for the presses, whose number wraps at 32 bits. -/
def due : List Button → List (Fin 8 × Message)
  | [] => []
  | b :: earlier => due earlier ++ toZones (.ofText (text b (earlier.count b % 2 ^ 32)))

/-- No overrun, and every zone was sent exactly what is due. -/
def Exact : Except Overrun Statics → Prop
  | .ok s => s.sent = due s.presses
  | .error _ => False

def Accepted (irq : Irq) (s : Statics) (b : Button) : Prop :=
  irq.source = some b ∧ irq.time > s.debounce b

/-- A press that is accepted finds its counter below 100000. -/
def FiveDigits : Except Overrun Statics → Irq → Prop
  | .ok s, irq => ∀ b, Accepted irq s b → (s.count b).toNat < 10 ^ 5
  | .error _, _ => True

section Texts

theorem put_ok {t more : List Byte} (fits : t.length + more.length < 16) :
    put (.ofText t) t.length (more ++ [0]) = .ok (.ofText (t ++ more)) := by
  have joined : (t ++ more).length < 16 := by rwa [List.length_append]
  have stored : t.length + (more ++ [0]).length ≤ 16 := by
    rw [List.length_append, List.length_singleton]
    exact fits
  rw [put, dif_pos stored]
  apply congrArg Except.ok
  apply Message.eq_of_bytes
  dsimp only
  rw [Message.ofText_last (Nat.lt_of_le_of_lt (Nat.le_add_right _ _) fits),
    Message.ofText_last joined, List.take_left, List.drop_length_add_append, List.length_append,
    List.length_append, List.length_singleton, List.drop_succ_cons, List.drop_replicate,
    Nat.sub_sub, ← List.append_assoc, List.append_assoc (t ++ more), List.singleton_append]

theorem put_overrun {msg : Message} {k : Nat} {more : List Byte}
    (long : 16 ≤ k + more.length) : put msg k (more ++ [0]) = .error .overrun := by
  rw [put, dif_neg]
  rw [List.length_append, List.length_singleton]
  omega

theorem cstring_ofText {t : List Byte} (short : t.length < 16) (noNul : 0 ∉ t) :
    cstring (Message.ofText t).bytes = t := by
  rw [Message.ofText_last short]
  exact cstring_terminated _ noNul

theorem literal_length (b : Button) : b.literal.length = 9 := by
  cases b <;> rfl

theorem decimal_length {k : Nat} (positive : 0 < k) (value : Nat) :
    (decimal value).length ≤ k ↔ value < 10 ^ k := by
  rw [decimal, ascii, List.length_map]
  exact Boot.utoa_length positive value

theorem literal_noNul (b : Button) : 0 ∉ b.literal := by
  cases b <;> decide

theorem decimal_noNul (value : Nat) : 0 ∉ decimal value := by
  intro nul
  obtain ⟨c, hc, zero⟩ := List.mem_map.mp nul
  have digit := Nat.isDigit_of_mem_toDigits (by decide) (by decide) hc
  have low : 48 ≤ c.toNat := (Char.isDigit_iff_toNat.mp digit).1
  have high : c.toNat ≤ 57 := (Char.isDigit_iff_toNat.mp digit).2
  have value := congrArg UInt8.toNat zero
  rw [UInt8.toNat_ofNat'] at value
  change c.toNat % 256 = 0 at value
  omega

theorem numbered_noNul (b : Button) (value : Nat) : 0 ∉ b.literal ++ decimal value := by
  intro nul
  rcases List.mem_append.mp nul with front | behind
  · exact literal_noNul b front
  · exact decimal_noNul value behind

theorem utoa_ok {b : Button} {count : UInt32} (fits : (decimal count.toNat).length ≤ 6) :
    utoa count (.ofText b.literal) 9 = .ok (.ofText (b.literal ++ decimal count.toNat)) := by
  rw [utoa, ← literal_length b]
  apply put_ok
  rw [literal_length]
  omega

theorem message_ok {b : Button} {count : UInt32} (small : count.toNat < 10 ^ 5) :
    message b count = .ok (.ofText (text b count.toNat)) := by
  have digits := (decimal_length (by decide) _).mpr small
  have short : (b.literal ++ decimal count.toNat).length + (ascii [')']).length < 16 := by
    rw [List.length_append, literal_length]
    change 9 + _ + 1 < 16
    omega
  rw [message, utoa_ok (Nat.le_succ_of_le digits)]
  change strcat (.ofText (b.literal ++ decimal count.toNat)) (ascii [')']) = _
  rw [strcat, cstring_ofText (Nat.lt_of_le_of_lt (Nat.le_add_right _ _) short)
    (numbered_noNul b _)]
  exact put_ok short

/-- With six digits there is no room for the NUL behind the parenthesis, and with more
none for the one that utoa stores. -/
theorem message_overrun {b : Button} {count : UInt32} (large : ¬ count.toNat < 10 ^ 5) :
    message b count = .error .overrun := by
  have digits := mt (decimal_length (by decide) count.toNat).mp large
  rcases Nat.lt_or_ge 6 (decimal count.toNat).length with more | six
  · rw [message, utoa, put_overrun (by omega)]
    rfl
  · have length : (b.literal ++ decimal count.toNat).length = 15 := by
      rw [List.length_append, literal_length]
      omega
    rw [message, utoa_ok six]
    change strcat (.ofText (b.literal ++ decimal count.toNat)) (ascii [')']) = _
    rw [strcat, cstring_ofText (by omega) (numbered_noNul b _), length]
    exact put_overrun (by decide)

end Texts

section Presses

variable {s t : Statics} {irq : Irq} {b : Button}

theorem plicHandler_accepted (accepted : Accepted irq s b) :
    plicHandler irq s = (message b (s.count b)).map (s.pressed b irq.time) := by
  rw [plicHandler, accepted.1]
  exact if_pos accepted.2

theorem plicHandler_other (other : ∀ b, ¬ Accepted irq s b) : plicHandler irq s = .ok s := by
  cases source : irq.source with
  | none => rw [plicHandler, source]
  | some b =>
    rw [plicHandler, source]
    exact if_neg fun late => other b ⟨source, late⟩

theorem handler_ok (accepted : Accepted irq s b) (small : (s.count b).toNat < 10 ^ 5) :
    plicHandler irq s = .ok (s.pressed b irq.time (.ofText (text b (s.count b).toNat))) := by
  rw [plicHandler_accepted accepted, message_ok small]
  rfl

theorem handler_overrun (accepted : Accepted irq s b) (large : ¬ (s.count b).toNat < 10 ^ 5) :
    plicHandler irq s = .error .overrun := by
  rw [plicHandler_accepted accepted, message_overrun large]
  rfl

def Counted : Except Overrun Statics → Prop
  | .ok s => ∀ b, (s.count b).toNat = s.presses.count b % 2 ^ 32
  | .error _ => True

theorem counted_pressed (h : Counted (.ok s)) (time : UInt64) (msg : Message) :
    Counted (.ok (s.pressed b time msg)) := by
  intro c
  by_cases this : c = b
  · subst this
    change (Function.update s.count c (s.count c + 1) c).toNat = (c :: s.presses).count c % _
    rw [Function.update_self, List.count_cons_self, UInt32.toNat_add, h c]
    exact Nat.mod_add_mod _ _ _
  · change (Function.update s.count b (s.count b + 1) c).toNat = (b :: s.presses).count c % _
    rw [Function.update_of_ne this, List.count_cons_of_ne (Ne.symm this)]
    exact h c

theorem exact_pressed (h : Counted (.ok s)) (sent : Exact (.ok s)) (time : UInt64) :
    Exact (.ok (s.pressed b time (.ofText (text b (s.count b).toNat)))) := by
  change s.sent ++ _ = due s.presses ++ _
  rw [sent, h b]

theorem plic_step {t : Except Overrun Statics} (sent : Exact (.ok s)) (counted : Counted (.ok s))
    (result : plicHandler irq s = t) : Counted t ∧ (Exact t ↔ FiveDigits (.ok s) irq) := by
  by_cases pressed : ∃ b, Accepted irq s b
  · obtain ⟨b, accepted⟩ := pressed
    have only : FiveDigits (.ok s) irq ↔ (s.count b).toNat < 10 ^ 5 := by
      constructor
      · intro small
        exact small b accepted
      · intro small c other
        have same : b = c := Option.some.inj (accepted.1.symm.trans other.1)
        exact same ▸ small
    rw [only, ← result]
    rcases Decidable.em ((s.count b).toNat < 10 ^ 5) with small | large
    · rw [handler_ok accepted small]
      exact ⟨counted_pressed counted _ _, fun _ => small, fun _ => exact_pressed counted sent _⟩
    · rw [handler_overrun accepted large]
      exact ⟨trivial, fun h => h.elim, fun small => absurd small large⟩
  · have other : ∀ b, ¬ Accepted irq s b := fun b accepted => pressed ⟨b, accepted⟩
    rw [← result, plicHandler_other other]
    exact ⟨counted, fun _ b accepted => absurd accepted (other b), fun _ => sent⟩

theorem run_next {irqs : List Irq} {t : Except Overrun Statics}
    (run : plic.run plic.initial irqs = some (.ok s)) (result : plicHandler irq s = t) :
    plic.run plic.initial (irqs ++ [irq]) = some t := by
  rw [Machine.run_append _ run]
  exact Machine.run_cons.mpr ⟨t, congrArg some result, rfl⟩

end Presses

/-- In every run the texts fit and are sent as they should be exactly if no press is
accepted with a counter of more than five digits. -/
theorem exact_iff (irqs : List Irq) :
    plic.Always Exact plic.initial irqs ↔ plic.Obeys FiveDigits plic.initial irqs := by
  have step : ∀ s irq t, Exact s → Counted s → plic.step s irq = some t →
      Counted t ∧ (Exact t ↔ FiveDigits s irq) := by
    intro s irq t sent counted hs
    cases s with
    | error => exact sent.elim
    | ok s => exact plic_step sent counted (Option.some.inj hs)
  exact Machine.always_iff_obeys (J := Counted)
    (fun s irq t sent counted _ hs => (step s irq t sent counted hs).1)
    (fun s irq t sent counted hs => (step s irq t sent counted hs).2) irqs rfl fun _ => rfl

/-- A press of SW2 each second. -/
def pressAt (n : Nat) : Irq := ⟨some .sw2, UInt64.ofNat (10 ^ 6 * (n + 1))⟩

def everySecond (n : Nat) : List Irq := (List.range n).map pressAt

theorem everySecond_succ (n : Nat) : everySecond (n + 1) = everySecond n ++ [pressAt n] := by
  rw [everySecond, List.range_succ, List.map_append, List.map_singleton, ← everySecond]

theorem pressAt_toNat {n : Nat} (few : n ≤ 10 ^ 5) :
    (pressAt n).time.toNat = 10 ^ 6 * (n + 1) := by
  rw [pressAt, UInt64.toNat_ofNat']
  apply Nat.mod_eq_of_lt
  omega

theorem everySecond_run {n : Nat} (few : n ≤ 10 ^ 5) :
    ∃ s, plic.run plic.initial (everySecond n) = some (.ok s) ∧ (s.count .sw2).toNat = n ∧
      Accepted (pressAt n) s .sw2 := by
  induction n with
  | zero => exact ⟨.initial, rfl, rfl, rfl, by decide⟩
  | succ n ih =>
    obtain ⟨s, run, count, accepted⟩ := ih (Nat.le_of_succ_le few)
    have small : (s.count .sw2).toNat < 10 ^ 5 := by
      rw [count]
      exact few
    have pressed := handler_ok accepted small
    refine ⟨s.pressed .sw2 (pressAt n).time (.ofText (text .sw2 (s.count .sw2).toNat)),
      ?_, ?_, rfl, ?_⟩
    · rw [everySecond_succ]
      exact run_next run pressed
    · change (s.count .sw2 + 1).toNat = n + 1
      rw [UInt32.toNat_add, count]
      exact Nat.mod_eq_of_lt (Nat.lt_of_le_of_lt few (by decide))
    · have before := pressAt_toNat (Nat.le_of_succ_le few)
      have now := pressAt_toNat few
      have pause : (200 * rtcFreq / 1000).toNat = 200000 := by decide
      change (pressAt n).time + 200 * rtcFreq / 1000 < (pressAt (n + 1)).time
      rw [UInt64.lt_iff_toNat_lt, UInt64.toNat_add, before, now, pause,
        Nat.mod_eq_of_lt (by omega)]
      omega

theorem next_overrun {n : Nat} (sixDigits : n = 10 ^ 5) :
    ¬ plic.Always Exact plic.initial (everySecond (n + 1)) := by
  obtain ⟨s, run, count, accepted⟩ := everySecond_run (Nat.le_of_eq sixDigits)
  have overrun := handler_overrun accepted (by omega)
  intro always
  rw [everySecond_succ] at always
  exact Machine.always_run always (run_next run overrun)

theorem sixDigits_overrun : ¬ plic.Always Exact plic.initial (everySecond (10 ^ 5 + 1)) :=
  next_overrun rfl

end MultiZone.Buttons
