import MultiZone.Printf.Integers

/-! The flag #, which puts 0x in front of a number in hexadecimal and 0 in octal. Whether room is
made for it among the digits that are in the buffer is decided by their number alone. -/
namespace MultiZone.Printf
open Formatting

theorem toDigits_head {base n : Nat} (one : 1 < base) (some' : n ≠ 0) :
    ∃ d t, 0 < d ∧ d < base ∧ Nat.toDigits base n = Nat.digitChar d :: t := by
  induction n using Nat.strong_induction_on with
  | _ n ih =>
    rcases Nat.lt_or_ge n base with below | large
    · exact ⟨n, [], Nat.pos_of_ne_zero some', below, Nat.toDigits_of_lt_base below⟩
    · have quotient : n / base ≠ 0 :=
        Nat.ne_of_gt (Nat.div_pos large (Nat.lt_trans Nat.zero_lt_one one))
      obtain ⟨d, t, positive, digit, head⟩ :=
        ih (n / base) (Nat.div_lt_self (Nat.pos_of_ne_zero some') one) quotient
      refine ⟨d, t ++ [Nat.digitChar (n % base)], positive, digit, ?_⟩
      rw [Nat.toDigits_of_base_le one large, head]
      rfl

def mark (upper : Bool) (base : Nat) : Text :=
  if base = 16 then [48, if upper then 88 else 120] else [48]

/-- The mark, as far as there is room. -/
def attach (upper : Bool) (base : Nat) (buf : Text) : Text :=
  push 48 (if base = 16 then push (if upper then 88 else 120) buf else buf)

/-- What is left of a number that has to make room. -/
def cut (base : Nat) (buf : Text) : Text := buf.drop (if base = 16 ∧ 2 ≤ buf.length then 2 else 1)

/-- The number with its mark. Without a precision one that is as long as the width makes room. -/
def marked (f : Field) (upper : Bool) (base : Nat) (buf : Text) : Text :=
  attach upper base (if f.precision = none ∧ buf.length = f.width then cut base buf else buf)

/-- When a number of `n` digits that is not 0 is put out right with a mark of `m` characters. -/
structure MarkLimits (f : Field) (m n : Nat) : Prop where
  left : f.left = true → f.precision.getD 0 ≤ n
  precision : f.left = false → f.precision.getD 0 + m ≤ 32
  width : f.precision = none → f.width ≠ n
  zero : f.left = false → f.zero = true → f.precision = none →
    f.width ≤ 32 ∧ (n < f.width → n + m ≤ f.width)

/-- A number in octal that has a zero in front by its precision gets another. -/
def HashLimits (f : Field) (base n : Nat) : Prop :=
  if base = 8 ∧ n < f.precision.getD 0 then
    f.precision.getD 0 = if f.left then n + 1 else 32
  else MarkLimits f (if base = 16 then 2 else 1) n

instance (f : Field) (m n : Nat) : Decidable (MarkLimits f m n) :=
  decidable_of_iff (_ ∧ _ ∧ _ ∧ _)
    ⟨fun ⟨l, p, w, z⟩ => ⟨l, p, w, z⟩, fun ⟨l, p, w, z⟩ => ⟨l, p, w, z⟩⟩

instance (f : Field) (base n : Nat) : Decidable (HashLimits f base n) :=
  inferInstanceAs (Decidable (if base = 8 ∧ n < f.precision.getD 0 then
    f.precision.getD 0 = (if f.left then n + 1 else 32)
  else MarkLimits f (if base = 16 then 2 else 1) n))

section Marks

variable {upper : Bool} {base : Nat} {buf : Text}

theorem mark_length (upper : Bool) (base : Nat) :
    (mark upper base).length = if base = 16 then 2 else 1 := by
  unfold mark
  split <;> rfl

theorem mark_ink (upper : Bool) (base : Nat) : ink (mark upper base) = (mark upper base).length := by
  unfold mark
  split
  · cases upper <;> rfl
  · rfl

theorem push_room (c : UInt8) (room : buf.length < 32) : push c buf = c :: buf := if_pos room

theorem push_full (c : UInt8) (full : 32 ≤ buf.length) : push c buf = buf :=
  if_neg (Nat.not_lt.mpr full)

theorem attach_room (room : buf.length + (mark upper base).length ≤ 32) :
    attach upper base buf = mark upper base ++ buf := by
  rw [mark_length] at room
  unfold attach mark
  split
  · rename_i hex
    rw [if_pos hex] at room
    rw [push_room (if upper then 88 else 120) (by omega),
      push_room 48 (by rw [List.length_cons]; omega)]
    rfl
  · rename_i other
    rw [if_neg other] at room
    rw [push_room _ (by omega)]
    rfl

theorem attach_full (full : 32 ≤ buf.length) : attach upper base buf = buf := by
  unfold attach
  split
  · rw [push_full _ full, push_full _ full]
  · rw [push_full _ full]

/-- Of 0x only the x where there is room for one. -/
theorem attach_last (hex : base = 16) (last : buf.length = 31) :
    attach upper base buf = (if upper then 88 else 120) :: buf := by
  rw [attach, if_pos hex, push_room (if upper then 88 else 120) (by omega),
    push_full 48 (by rw [List.length_cons]; omega)]

theorem cut_length {b : Text} (upper : Bool) (known : base = 8 ∨ base = 16) :
    (cut base b).length + (mark upper base).length = max b.length (mark upper base).length := by
  rw [cut, mark_length, List.length_drop]
  rcases known with rfl | rfl
  · simp only [Nat.reduceEqDiff, false_and, if_false]
    omega
  · simp only [true_and, if_true]
    split <;> omega

theorem handleHash_eq {f : Field} {flags : Flags} (agree : Agree f flags)
    (known : base = 8 ∨ base = 16) (some' : buf.length ≠ 0) :
    handleHash buf base (f.precision.getD 0) f.width flags = marked f flags.uppercase base buf := by
  have condition : (flags.precision = false ∧ buf.length ≠ 0 ∧
      (buf.length = f.precision.getD 0 ∨ buf.length = f.width)) ↔
      f.precision = none ∧ buf.length = f.width := by
    rw [agree.precision]
    cases f.precision with
    | none => simp [some']
    | some p => simp
  have dropped : (if buf.length - 1 ≠ 0 ∧ base = 16 then buf.drop 2 else buf.drop 1) =
      cut base buf := by
    unfold cut
    rcases known with rfl | rfl
    · simp
    · simp only [and_true, true_and]
      split
      · rw [if_pos (by omega)]
      · rw [if_neg (by omega)]
  unfold handleHash marked attach
  dsimp only
  rw [dropped, if_congr condition rfl rfl]
  rcases known with rfl | rfl
  · rfl
  · cases flags.uppercase <;> simp [push, ntoaBufferSize]

end Marks

section Numbers

variable {f : Field} {flags : Flags} {base : Nat} {body : Text} {upper : Bool}

theorem ntoaFormat_hash (agree : Agree f flags) (hash : flags.hash = true)
    (noLead : flags.plus = false ∧ flags.space = false) (known : base = 8 ∨ base = 16)
    (some' : body.length ≠ 0) :
    ntoaFormat body false base (f.precision.getD 0) f.width flags =
      if f.left = true then
        let buf := marked f flags.uppercase base body
        buf ++ List.replicate (f.width - buf.length) 32
      else if f.zero = true ∧ f.precision = none then
        marked f flags.uppercase base (padZeros f.width body)
      else
        let buf := marked f flags.uppercase base (padZeros (f.precision.getD 0) body)
        List.replicate (f.width - buf.length) 32 ++ buf := by
  have filled : ∀ n, (padZeros n body).length ≠ 0 := by
    intro n
    rw [padZeros, List.length_append]
    omega
  unfold ntoaFormat
  dsimp only
  rw [noLead.1, noLead.2, hash]
  simp only [Bool.false_eq_true, or_self, and_false, if_false, if_true]
  cases left : f.left with
  | true =>
    have flag := agree.left.trans left
    rw [handleHash_eq agree known (by simp only [flag, if_true]; exact some')]
    simp only [flag, if_true, outRev, Bool.true_eq_false, false_and, if_false, List.replicate_zero,
      List.nil_append, Nat.zero_add]
  | false =>
    have flag := agree.left.trans left
    simp only [flag, Bool.false_eq_true, if_false]
    cases pads : f.zero && f.precision.isNone with
    | true =>
      have zeropad := agree.zeropad.trans pads
      rw [Bool.and_eq_true, Option.isNone_iff_eq_none] at pads
      have none' : padZeros (f.precision.getD 0) body = body := by
        rw [pads.2, Option.getD_none, padZeros, Nat.zero_min, Nat.zero_sub]
        rfl
      rw [if_pos pads]
      simp only [zeropad, if_true]
      rw [none', handleHash_eq agree known (filled _)]
      simp only [outRev, flag, zeropad, Bool.true_eq_false, Bool.false_eq_true, and_false, if_false,
        List.replicate_zero, List.nil_append, List.append_nil]
    | false =>
      have zeropad := agree.zeropad.trans pads
      have plain : ¬ (f.zero = true ∧ f.precision = none) := by
        rintro ⟨zero, none'⟩
        rw [zero, none'] at pads
        cases pads
      rw [if_neg plain]
      simp only [zeropad, Bool.false_eq_true, if_false]
      rw [handleHash_eq agree known (filled _)]
      simp only [outRev, flag, zeropad, and_self, if_true, Bool.false_eq_true, if_false,
        List.replicate_zero, List.append_nil]

section Cases

theorem number_plain {l : Text} (plain : ¬ (f.zero = true ∧ f.left = false ∧ f.precision = none)) :
    number f l body =
      pad f (l ++ (List.replicate (f.precision.getD 0 - body.length) 48 ++ body)) := by
  rw [number, if_neg plain]

theorem ink_pad (f : Field) (t : Text) : ink (pad f t) = ink t := by
  unfold pad
  dsimp only
  split
  · rw [ink_append, ink_spaces, Nat.add_zero]
  · rw [ink_append, ink_spaces, Nat.zero_add]

theorem number_length {b : Text} (l : Text) : l.length + b.length ≤ (number f l b).length := by
  unfold number pad
  dsimp only
  split
  · simp only [List.length_append, List.length_replicate]
    omega
  · split <;> simp only [List.length_append, List.length_replicate] <;> omega

theorem mark_some (upper : Bool) (base : Nat) :
    1 ≤ (mark upper base).length ∧ (mark upper base).length ≤ 2 := by
  rw [mark_length]
  split <;> decide

/-- In octal a precision that is more than the digits puts a zero in front already. -/
theorem octal_beyond (short : body.length ≤ 22) (more : body.length < f.precision.getD 0) :
    (if f.left = true then
        marked f upper 8 body ++ List.replicate (f.width - (marked f upper 8 body).length) 32
      else
        List.replicate
            (f.width - (marked f upper 8 (padZeros (f.precision.getD 0) body)).length) 32 ++
          marked f upper 8 (padZeros (f.precision.getD 0) body)) = number f [] body ↔
      f.precision.getD 0 = if f.left then body.length + 1 else 32 := by
  have precision : f.precision ≠ none := by
    intro none'
    rw [none', Option.getD_none] at more
    omega
  have one : (mark upper 8).length = 1 := mark_length upper 8
  have whole : number f [] body =
      pad f (List.replicate (f.precision.getD 0 - body.length) 48 ++ body) := by
    rw [number_plain fun all => precision all.2.2]
    rfl
  have kept : ∀ buf, marked f upper 8 buf = attach upper 8 buf := by
    intro buf
    rw [marked, if_neg fun both => precision both.1]
  have size : (padZeros (f.precision.getD 0) body).length =
      max body.length (min (f.precision.getD 0) 32) :=
    padZeros_length _ _
  rw [whole, kept, kept, pad]
  cases left : f.left with
  | true =>
    rw [if_pos rfl, if_pos rfl, if_pos rfl, attach_room (by omega)]
    constructor
    · intro same
      have inks := congrArg ink same
      simp only [ink_append, ink_spaces, ink_zeros, mark_ink] at inks
      omega
    · intro exactly
      rw [exactly, Nat.add_sub_cancel_left]
      rfl
  | false =>
    rw [if_neg Bool.false_ne_true, if_neg Bool.false_ne_true, if_neg Bool.false_ne_true]
    rcases Nat.lt_or_ge (f.precision.getD 0) 32 with room | full
    · rw [attach_room (by omega)]
      refine ⟨fun same => ?_, fun exactly => by omega⟩
      have inks := congrArg ink same
      rw [padZeros] at inks
      simp only [ink_append, ink_spaces, ink_zeros, mark_ink, ntoaBufferSize] at inks
      omega
    · rw [attach_full (by omega), padZeros]
      constructor
      · intro same
        have inks := congrArg ink same
        simp only [ink_append, ink_spaces, ink_zeros, ntoaBufferSize] at inks
        omega
      · intro exactly
        rw [exactly]
        rfl

variable (known : base = 8 ∨ base = 16) (short : body.length ≤ 22) (some' : body.length ≠ 0)
include known short some'

theorem hash_left (left : f.left = true) :
    marked f upper base body ++ List.replicate (f.width - (marked f upper base body).length) 32 =
        number f (mark upper base) body ↔
      f.precision.getD 0 ≤ body.length ∧ (f.precision = none → f.width ≠ body.length) := by
  have marks := mark_some upper base
  rcases Decidable.em (f.precision = none ∧ body.length = f.width) with ⟨none', width⟩ | kept
  · have cuts := cut_length (b := body) upper known
    have long := number_length (f := f) (b := body) (mark upper base)
    rw [marked, if_pos ⟨none', width⟩, attach_room (by omega)]
    constructor
    · intro same
      have lengths := congrArg List.length same
      simp only [List.length_append, List.length_replicate] at lengths
      omega
    · rintro ⟨-, other⟩
      exact absurd width.symm (other none')
  · rw [marked, if_neg kept, attach_room (by omega), left_iff left]
    exact ⟨fun few => ⟨few, fun none' width => kept ⟨none', width.symm⟩⟩, fun all => all.1⟩

theorem hash_zero (left : f.left = false) (zero : f.zero = true) (none' : f.precision = none) :
    marked f upper base (padZeros f.width body) = number f (mark upper base) body ↔
      f.width ≠ body.length ∧ f.width ≤ 32 ∧
        (body.length < f.width → body.length + (mark upper base).length ≤ f.width) := by
  have marks := mark_some upper base
  have size : (padZeros f.width body).length = max body.length (min f.width 32) :=
    padZeros_length _ _
  have whole : number f (mark upper base) body = mark upper base ++
      List.replicate (f.width - ((mark upper base).length + body.length)) 48 ++ body := by
    rw [number, if_pos ⟨zero, left, none'⟩, none', Option.getD_none, Nat.zero_sub,
      List.replicate_zero, List.nil_append]
  rw [whole]
  rcases Nat.lt_or_ge f.width body.length with below | above
  · have same : padZeros f.width body = body := by
      rw [padZeros, Nat.sub_eq_zero_of_le (by omega), List.replicate_zero, List.nil_append]
    rw [marked, same, if_neg (by omega), attach_room (by omega),
      Nat.sub_eq_zero_of_le (by omega : f.width ≤ (mark upper base).length + body.length),
      List.replicate_zero, List.append_nil]
    exact ⟨fun _ => ⟨by omega, by omega, by omega⟩, fun _ => rfl⟩
  · rcases Nat.lt_or_ge 32 f.width with wide | narrow
    · rw [marked, if_neg (by omega), attach_full (by omega)]
      constructor
      · intro same
        have lengths := congrArg List.length same
        simp only [List.length_append, List.length_replicate, size] at lengths
        omega
      · rintro ⟨-, narrow, -⟩
        omega
    · have cuts := cut_length (b := padZeros f.width body) upper known
      rw [marked, if_pos ⟨none', by omega⟩, attach_room (by omega)]
      constructor
      · intro same
        have lengths := congrArg List.length same
        simp only [List.length_append, List.length_replicate] at lengths
        omega
      · rintro ⟨other, -, room⟩
        have room := room (by omega)
        have rest : cut base (padZeros f.width body) =
            List.replicate (f.width - ((mark upper base).length + body.length)) 48 ++ body := by
          have amount : (if base = 16 ∧ 2 ≤ (padZeros f.width body).length then 2 else 1) =
              (mark upper base).length := by
            rw [mark_length] at room ⊢
            split at room
            · rename_i hex
              rw [if_pos ⟨hex, by omega⟩, if_pos hex]
            · rename_i octal
              rw [if_neg fun both => octal both.1, if_neg octal]
          rw [cut, amount, padZeros, ntoaBufferSize, Nat.min_eq_left narrow,
            List.drop_append_of_le_length (by rw [List.length_replicate]; omega),
            List.drop_replicate, Nat.sub_sub, Nat.add_comm body.length]
        rw [rest, List.append_assoc]

theorem hash_right (left : f.left = false) (plain : ¬ (f.zero = true ∧ f.precision = none)) :
    List.replicate (f.width - (marked f upper base (padZeros (f.precision.getD 0) body)).length) 32 ++
        marked f upper base (padZeros (f.precision.getD 0) body) = number f (mark upper base) body ↔
      f.precision.getD 0 + (mark upper base).length ≤ 32 ∧
        (f.precision = none → f.width ≠ body.length) := by
  have marks := mark_some upper base
  have whole : number f (mark upper base) body = pad f (mark upper base ++
      (List.replicate (f.precision.getD 0 - body.length) 48 ++ body)) := by
    apply number_plain
    rintro ⟨zero, -, none'⟩
    exact plain ⟨zero, none'⟩
  have size : (padZeros (f.precision.getD 0) body).length =
      max body.length (min (f.precision.getD 0) 32) :=
    padZeros_length _ _
  rcases Decidable.em (f.precision = none ∧
      (padZeros (f.precision.getD 0) body).length = f.width) with ⟨none', width⟩ | kept
  · have cuts := cut_length (b := padZeros (f.precision.getD 0) body) upper known
    have long := number_length (f := f) (b := body) (mark upper base)
    have zero : f.precision.getD 0 = 0 := by rw [none', Option.getD_none]
    rw [marked, if_pos ⟨none', width⟩, attach_room (by omega)]
    constructor
    · intro same
      have lengths := congrArg List.length same
      simp only [List.length_append, List.length_replicate] at lengths
      omega
    · rintro ⟨-, other⟩
      exact absurd (by omega) (other none')
  · rw [marked, if_neg kept, whole, pad, left, if_neg Bool.false_ne_true]
    have other : f.precision = none → f.width ≠ body.length := by
      intro none' width
      apply kept
      rw [none', Option.getD_none] at size
      exact ⟨none', by rw [none', Option.getD_none]; omega⟩
    rcases Nat.lt_or_ge 32 (f.precision.getD 0 + (mark upper base).length) with wide | narrow
    · refine ⟨fun same => ?_, fun room => by omega⟩
      have inks := congrArg ink same
      simp only [ink_append, ink_spaces, ink_zeros, mark_ink] at inks
      rcases Nat.lt_or_ge (f.precision.getD 0) 32 with last | full
      · have hex : base = 16 := by
          rw [mark_length] at wide
          split at wide
          · assumption
          · omega
        have x : ∀ t : Text, ink ((if upper then 88 else 120) :: t) = ink t + 1 := by
          intro t
          cases upper <;> exact List.countP_cons_of_pos (by decide)
        rw [attach_last hex (by rw [size, mark_length, if_pos hex] at *; omega), x, padZeros,
          ink_append, ink_zeros, ntoaBufferSize] at inks
        omega
      · rw [attach_full (by omega), padZeros, ink_append, ink_zeros, ntoaBufferSize] at inks
        omega
    · rw [attach_room (by omega), padZeros, ntoaBufferSize,
        Nat.min_eq_left (by omega : f.precision.getD 0 ≤ 32)]
      exact ⟨fun _ => ⟨narrow, other⟩, fun _ => rfl⟩

end Cases

theorem ntoaFormat_marked (agree : Agree f flags) (hash : flags.hash = true)
    (noLead : flags.plus = false ∧ flags.space = false) (uppercase : flags.uppercase = upper)
    (known : base = 8 ∨ base = 16) (short : body.length ≤ 22) (some' : body.length ≠ 0) :
    ntoaFormat body false base (f.precision.getD 0) f.width flags =
      (if base = 8 ∧ body.length < f.precision.getD 0 then number f [] body
        else number f (mark upper base) body) ↔ HashLimits f base body.length := by
  rw [ntoaFormat_hash agree hash noLead known some', uppercase, HashLimits]
  rcases Decidable.em (base = 8 ∧ body.length < f.precision.getD 0) with ⟨rfl, more⟩ | within
  · have plain : ¬ (f.zero = true ∧ f.precision = none) := by
      rintro ⟨-, none'⟩
      rw [none', Option.getD_none] at more
      omega
    have octal : 8 = 8 ∧ body.length < f.precision.getD 0 := ⟨rfl, more⟩
    rw [if_pos octal, if_pos octal, if_neg plain]
    exact octal_beyond short more
  · rw [if_neg within, if_neg within, ← mark_length upper base]
    have marks := mark_some upper base
    cases left : f.left with
    | true =>
      have wrong : f.left ≠ false := by
        rw [left]
        decide
      rw [if_pos rfl]
      dsimp only
      rw [hash_left known short some' left]
      exact ⟨fun ⟨few, other⟩ => ⟨fun _ => few, fun right => absurd right wrong, other,
        fun right => absurd right wrong⟩, fun limits => ⟨limits.left left, limits.width⟩⟩
    | false =>
      have wrong : f.left ≠ true := by
        rw [left]
        decide
      rw [if_neg Bool.false_ne_true]
      rcases Decidable.em (f.zero = true ∧ f.precision = none) with ⟨zero, none'⟩ | plain
      · have few : f.precision.getD 0 + (mark upper base).length ≤ 32 := by
          rw [none', Option.getD_none]
          omega
        rw [if_pos ⟨zero, none'⟩, hash_zero known short some' left zero none']
        exact ⟨fun ⟨other, narrow, room⟩ => ⟨fun right => absurd right wrong, fun _ => few,
          fun _ => other, fun _ _ _ => ⟨narrow, room⟩⟩,
          fun limits => ⟨limits.width none', limits.zero left zero none'⟩⟩
      · rw [if_neg plain]
        dsimp only
        rw [hash_right known short some' left plain]
        exact ⟨fun ⟨few, other⟩ => ⟨fun right => absurd right wrong, fun _ => few, other,
          fun _ zero none' => absurd ⟨zero, none'⟩ plain⟩,
          fun limits => ⟨limits.precision left, limits.width⟩⟩

end Numbers

end MultiZone.Printf
