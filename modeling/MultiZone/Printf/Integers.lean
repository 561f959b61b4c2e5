import MultiZone.Printf.Model
import Mathlib.Algebra.Group.Nat.Defs

/-! Which integer conversions are those of the standard. A number is built in a buffer of 32
characters from its end, and what does not fit is missing. -/
namespace MultiZone.Printf
open Formatting

section Digits

theorem digitChar_eq (upper : Bool) : ∀ d < 16,
    digitChar upper d = digitByte upper (Nat.digitChar d) := by
  cases upper <;> decide

theorem putDigits_eq (upper : Bool) {base : Nat} (one : 1 < base) (small : base ≤ 16)
    {room value : Nat} (some' : 0 < room) (fits : value < base ^ room) (buf : Text) :
    putDigits upper base room value buf =
      (Nat.toDigits base value).map (digitByte upper) ++ buf := by
  induction room generalizing value buf with
  | zero => omega
  | succ room ih =>
    have digit := Nat.mod_lt value (Nat.lt_trans Nat.zero_lt_one one)
    have last := digitChar_eq upper (value % base) (by omega)
    unfold putDigits
    rw [last]
    dsimp only
    split
    · rename_i more
      have large : base ≤ value := by
        apply Decidable.byContradiction
        intro below
        exact more (Nat.div_eq_of_lt (Nat.lt_of_not_le below))
      have fits' : value / base < base ^ room := by
        apply Nat.div_lt_of_lt_mul
        rwa [Nat.mul_comm, ← Nat.pow_succ]
      have room' : 0 < room := by
        apply Nat.pos_of_ne_zero
        intro full
        rw [full, Nat.pow_zero] at fits'
        exact more (Nat.lt_one_iff.mp fits')
      rw [ih room' fits', Nat.toDigits_of_base_le one large, List.map_append, List.append_assoc]
      rfl
    · rename_i last'
      have below : value < base := by
        have quotient := Decidable.not_not.mp last'
        rcases (Nat.div_eq_zero_iff).mp quotient with zero | below
        · omega
        · exact below
      rw [Nat.mod_eq_of_lt below, Nat.toDigits_of_lt_base below]
      rfl

end Digits

/-- The digits that are put into the buffer, none of 0 where there is a precision. -/
def bufDigits (upper : Bool) (base value : Nat) (precision : Option Nat) : Text :=
  if value = 0 ∧ precision.isSome then [] else (Nat.toDigits base value).map (digitByte upper)

def lead (negative : Bool) (flags : Flags) : Text :=
  if negative then [45] else if flags.plus then [43] else if flags.space then [32] else []

/-- The flags are those of the field. -/
structure Agree (f : Field) (flags : Flags) : Prop where
  left : flags.left = f.left
  zeropad : flags.zeropad = (f.zero && f.precision.isNone)
  precision : flags.precision = f.precision.isSome

/-- When a number of `n` digits fits into the buffer with all that belongs to it. The precision
is not looked at where the number is to the left. A space in front that does not fit is not
missed where the number is padded with spaces anyway. -/
structure Limits (f : Field) (lead : Text) (n : Nat) : Prop where
  left : f.left = true → f.precision.getD 0 ≤ n
  precision : f.left = false → f.precision.getD 0 + lead.length ≤ 32 ∨
    lead = [32] ∧ f.precision = some 32 ∧ 33 ≤ f.width
  zero : f.left = false → f.zero = true → f.precision = none → f.width ≤ 32

instance (f : Field) (lead : Text) (n : Nat) : Decidable (Limits f lead n) :=
  decidable_of_iff (_ ∧ _ ∧ _) ⟨fun ⟨l, p, z⟩ => ⟨l, p, z⟩, fun ⟨l, p, z⟩ => ⟨l, p, z⟩⟩

section Conversion

variable {f : Field} {flags : Flags} {negative : Bool} {base value : Nat}

theorem lead_length (negative : Bool) (flags : Flags) : (lead negative flags).length ≤ 1 := by
  unfold lead
  split
  · decide
  · split
    · decide
    · split <;> decide

theorem push_lead (buf : Text) :
    (if negative then push 45 buf else if flags.plus then push 43 buf
      else if flags.space then push 32 buf else buf) =
      if buf.length < 32 then lead negative flags ++ buf else buf := by
  unfold lead push ntoaBufferSize
  split
  · rfl
  · split
    · rfl
    · split
      · rfl
      · split <;> rfl

theorem lead_width (width : Nat) (zeropad : flags.zeropad = true) (left : flags.left = false) :
    (if flags.left = false ∧ width ≠ 0 ∧ flags.zeropad ∧ (negative ∨ flags.plus ∨ flags.space) then
      width - 1 else width) = width - (lead negative flags).length := by
  unfold lead
  cases negative <;> cases flags.plus <;> cases flags.space <;> simp [zeropad, left] <;> omega

/-- There is no # for 0. -/
theorem ntoaLong_digits (upper : Bool) (one : 1 < base) (small : base ≤ 16)
    (fits : value < base ^ 32) (agree : Agree f flags) (uppercase : flags.uppercase = upper)
    (prec width : Nat) : ntoaLong value negative base prec width flags =
      ntoaFormat (bufDigits upper base value f.precision) negative base prec width
        (if value = 0 then { flags with hash := false } else flags) := by
  have digits := putDigits_eq upper one small (by decide : 0 < ntoaBufferSize) fits []
  rw [List.append_nil] at digits
  unfold ntoaLong bufDigits
  dsimp only
  split
  · rename_i zero
    dsimp only
    rw [agree.precision, uppercase, digits]
    cases f.precision <;> simp [zero]
  · rename_i some'
    rw [agree.precision, uppercase, digits]
    simp [some']

theorem Agree.clear (agree : Agree f flags) : Agree f { flags with hash := false } :=
  ⟨agree.left, agree.zeropad, agree.precision⟩

theorem number_magnitude (f : Field) (lead : Text) (upper : Bool) :
    number f lead (magnitude upper base value f.precision) =
      number f lead (bufDigits upper base value f.precision) := by
  unfold magnitude bufDigits
  cases precision : f.precision with
  | none => simp
  | some p =>
    rcases Nat.eq_zero_or_pos p with rfl | positive
    · simp
    · rcases Nat.eq_zero_or_pos value with rfl | some'
      · have zeros : List.replicate (p - 1) (48 : UInt8) ++ [48] = List.replicate p 48 := by
          rw [← List.replicate_succ', Nat.sub_add_cancel positive]
        have digit : (Nat.toDigits base 0).map (digitByte upper) = [48] := by
          rw [Nat.toDigits_zero]
          cases upper <;> rfl
        have some' : some p ≠ some 0 := fun same => absurd (Option.some.inj same) (by omega)
        rw [if_neg fun zero => some' zero.2, if_pos ⟨rfl, rfl⟩, digit]
        unfold number
        simp only [precision, Option.getD_some, List.length_singleton, List.length_nil,
          Nat.sub_zero, zeros, List.append_nil]
      · have other : value ≠ 0 := Nat.ne_of_gt some'
        simp [other]

theorem ntoaFormat_eq (agree : Agree f flags) (plain : flags.hash = false) {body : Text}
    (short : body.length ≤ 31) :
    ntoaFormat body negative base (f.precision.getD 0) f.width flags =
      if f.left = true then
        let buf := lead negative flags ++ body
        buf ++ List.replicate (f.width - buf.length) 32
      else if f.zero = true ∧ f.precision = none then
        let buf := padZeros (f.width - (lead negative flags).length) body
        if buf.length < 32 then lead negative flags ++ buf else buf
      else
        let buf := padZeros (f.precision.getD 0) body
        let buf := if buf.length < 32 then lead negative flags ++ buf else buf
        List.replicate (f.width - buf.length) 32 ++ buf := by
  unfold ntoaFormat
  dsimp only
  rw [push_lead]
  rw [plain, if_neg Bool.false_ne_true]
  cases left : f.left with
  | true =>
    have flag := agree.left.trans left
    simp only [flag, Bool.true_eq_false, false_and, if_false, if_true]
    rw [if_pos (by omega), outRev]
    simp only [flag, Bool.true_eq_false, false_and, if_false, if_true, Nat.zero_add]
    rfl
  | false =>
    have flag := agree.left.trans left
    rw [if_neg Bool.false_ne_true]
    cases pads : f.zero && f.precision.isNone with
    | true =>
      have zeropad := agree.zeropad.trans pads
      rw [Bool.and_eq_true, Option.isNone_iff_eq_none] at pads
      rw [if_pos pads, lead_width f.width zeropad flag, pads.2]
      have none' : padZeros ((none : Option Nat).getD 0) body = body := by
        rw [Option.getD_none, padZeros, Nat.zero_min, Nat.zero_sub]
        rfl
      simp only [flag, zeropad, Bool.false_eq_true, if_false, if_true, none', outRev,
        Bool.true_eq_false, and_false, List.replicate_zero, List.nil_append, List.append_nil]
    | false =>
      have zeropad := agree.zeropad.trans pads
      have plain : ¬ (f.zero = true ∧ f.precision = none) := by
        rintro ⟨zero, none'⟩
        rw [zero, none'] at pads
        cases pads
      rw [if_neg plain]
      simp only [flag, zeropad, Bool.false_eq_true, if_false, false_and, and_false, outRev, and_self,
        if_true, List.replicate_zero, List.append_nil]

/-- The characters that are not spaces. -/
def ink (t : Text) : Nat := t.countP fun c => c ≠ 32

theorem ink_append (s t : Text) : ink (s ++ t) = ink s + ink t := List.countP_append

theorem ink_spaces (n : Nat) : ink (List.replicate n 32) = 0 := by
  rw [ink, List.countP_replicate, if_neg (by decide)]

theorem ink_zeros (n : Nat) : ink (List.replicate n 48) = n := by
  rw [ink, List.countP_replicate, if_pos (by decide)]

theorem lead_cases (negative : Bool) (flags : Flags) :
    lead negative flags = [] ∨ lead negative flags = [32] ∨
      (lead negative flags).length = 1 ∧ ink (lead negative flags) = 1 := by
  unfold lead
  split
  · exact .inr (.inr (by decide))
  · split
    · exact .inr (.inr (by decide))
    · split
      · exact .inr (.inl rfl)
      · exact .inl rfl

section Cases

variable {body l : Text}

theorem left_iff (left : f.left = true) :
    (l ++ body) ++ List.replicate (f.width - (l ++ body).length) 32 = number f l body ↔
      f.precision.getD 0 ≤ body.length := by
  have other : ¬ (f.zero = true ∧ f.left = false ∧ f.precision = none) := by
    rintro ⟨-, right, -⟩
    rw [left] at right
    cases right
  rw [number, if_neg other, pad, if_pos left]
  constructor
  · intro same
    have inks := congrArg ink same
    simp only [ink_append, ink_spaces, ink_zeros] at inks
    omega
  · intro few
    rw [Nat.sub_eq_zero_of_le few, List.replicate_zero, List.nil_append]

theorem padZeros_length (n : Nat) (body : Text) :
    (padZeros n body).length = max body.length (min n 32) := by
  rw [padZeros, List.length_append, List.length_replicate, ntoaBufferSize]
  omega

theorem zero_iff (left : f.left = false) (zero : f.zero = true) (none' : f.precision = none)
    (few : l.length ≤ 1) (short : body.length ≤ 30) :
    (let buf := padZeros (f.width - l.length) body
      if buf.length < 32 then l ++ buf else buf) = number f l body ↔ f.width ≤ 32 := by
  have whole : number f l body =
      l ++ List.replicate (f.width - (l.length + body.length)) 48 ++ body := by
    rw [number, if_pos ⟨zero, left, none'⟩, none', Option.getD_none, Nat.zero_sub, List.replicate_zero,
      List.nil_append]
  have size : (padZeros (f.width - l.length) body).length =
      max body.length (min (f.width - l.length) 32) :=
    padZeros_length _ _
  rw [whole]
  dsimp only
  constructor
  · intro same
    have lengths := congrArg List.length same
    apply Decidable.byContradiction
    intro wide
    rw [if_neg (by omega), size] at lengths
    simp only [List.length_append, List.length_replicate] at lengths
    omega
  · intro narrow
    have room : l = [] ∨ (padZeros (f.width - l.length) body).length < 32 := by
      rcases Nat.eq_zero_or_pos l.length with empty | some'
      · exact .inl (List.length_eq_zero_iff.mp empty)
      · exact .inr (by omega)
    have pushed : (if (padZeros (f.width - l.length) body).length < 32 then
        l ++ padZeros (f.width - l.length) body else padZeros (f.width - l.length) body) =
        l ++ padZeros (f.width - l.length) body := by
      rcases room with rfl | room
      · split <;> rfl
      · rw [if_pos room]
    rw [pushed, padZeros, List.append_assoc, ntoaBufferSize,
      Nat.min_eq_left (by omega : f.width - l.length ≤ 32), Nat.sub_sub]

theorem right_iff (left : f.left = false) (plain : ¬ (f.zero = true ∧ f.precision = none))
    (kinds : l = [] ∨ l = [32] ∨ l.length = 1 ∧ ink l = 1) (short : body.length ≤ 30) :
    (let buf := padZeros (f.precision.getD 0) body
      let buf := if buf.length < 32 then l ++ buf else buf
      List.replicate (f.width - buf.length) 32 ++ buf) = number f l body ↔
      (f.precision.getD 0 + l.length ≤ 32 ∨
        l = [32] ∧ f.precision = some 32 ∧ 33 ≤ f.width) := by
  have whole : number f l body =
      List.replicate (f.width - (l ++ (List.replicate (f.precision.getD 0 - body.length) 48 ++
        body)).length) 32 ++ (l ++ (List.replicate (f.precision.getD 0 - body.length) 48 ++ body)) := by
    have other : ¬ (f.zero = true ∧ f.left = false ∧ f.precision = none) :=
      fun all => plain ⟨all.1, all.2.2⟩
    rw [number, if_neg other, pad, left, if_neg Bool.false_ne_true]
  have size : (padZeros (f.precision.getD 0) body).length =
      max body.length (min (f.precision.getD 0) 32) :=
    padZeros_length _ _
  have few : l.length ≤ 1 := by
    rcases kinds with rfl | rfl | ⟨one, -⟩
    · decide
    · decide
    · exact Nat.le_of_eq one
  rw [whole]
  dsimp only
  constructor
  · intro same
    apply Decidable.or_iff_not_imp_left.mpr
    intro wide
    rw [if_neg (by omega)] at same
    have inks := congrArg ink same
    have lengths := congrArg List.length same
    rw [padZeros, ntoaBufferSize] at inks
    simp only [ink_append, ink_spaces, ink_zeros] at inks
    simp only [List.length_append, List.length_replicate, size] at lengths
    rcases kinds with rfl | rfl | ⟨one, dark⟩
    · rw [List.length_nil] at wide
      have none' : ink [] = 0 := rfl
      omega
    · have light : ink [32] = 0 := rfl
      rw [List.length_singleton] at wide lengths
      have exactly : f.precision.getD 0 = 32 := by omega
      refine ⟨rfl, ?_, by omega⟩
      cases precision : f.precision with
      | none =>
        rw [precision] at exactly
        cases exactly
      | some p =>
        rw [precision] at exactly
        exact congrArg some exactly
    · omega
  · rintro (narrow | ⟨rfl, precision, wide⟩)
    · have pushed : (if (padZeros (f.precision.getD 0) body).length < 32 then
          l ++ padZeros (f.precision.getD 0) body else padZeros (f.precision.getD 0) body) =
          l ++ padZeros (f.precision.getD 0) body := by
        rcases Nat.eq_zero_or_pos l.length with empty | some'
        · rw [List.length_eq_zero_iff.mp empty]
          split <;> rfl
        · rw [if_pos (by omega)]
      rw [pushed, padZeros, ntoaBufferSize, Nat.min_eq_left (by omega : f.precision.getD 0 ≤ 32)]
    · rw [precision, Option.getD_some] at size ⊢
      rw [if_neg (by omega), size]
      have more : f.width - max body.length (min 32 32) =
          f.width - ([32] ++ (List.replicate (32 - body.length) (48 : UInt8) ++ body)).length + 1 := by
        simp only [List.length_append, List.length_replicate, List.length_singleton]
        omega
      rw [more, List.replicate_succ', List.append_assoc]
      rfl

end Cases

theorem ntoaFormat_number (agree : Agree f flags) (plain : flags.hash = false) {body : Text}
    (short : body.length ≤ 30) :
    ntoaFormat body negative base (f.precision.getD 0) f.width flags =
      number f (lead negative flags) body ↔ Limits f (lead negative flags) body.length := by
  rw [ntoaFormat_eq agree plain (by omega)]
  cases left : f.left with
  | true =>
    have wrong : f.left ≠ false := by
      rw [left]
      decide
    rw [if_pos rfl]
    dsimp only
    rw [left_iff left]
    exact ⟨fun few => ⟨fun _ => few, fun right => absurd right wrong,
      fun right => absurd right wrong⟩, fun limits => limits.left left⟩
  | false =>
    have wrong : f.left ≠ true := by
      rw [left]
      decide
    rw [if_neg Bool.false_ne_true]
    rcases Decidable.em (f.zero = true ∧ f.precision = none) with zero | plain
    · rw [if_pos zero, zero_iff left zero.1 zero.2 (lead_length negative flags) short]
      have none' : f.precision.getD 0 + (lead negative flags).length ≤ 32 := by
        have few := lead_length negative flags
        rw [zero.2, Option.getD_none]
        omega
      exact ⟨fun narrow => ⟨fun other => absurd other wrong, fun _ => .inl none',
        fun _ _ _ => narrow⟩, fun limits => limits.zero left zero.1 zero.2⟩
    · rw [if_neg plain, right_iff left plain (lead_cases negative flags) short]
      exact ⟨fun room => ⟨fun other => absurd other wrong, fun _ => room,
        fun _ zero none' => absurd ⟨zero, none'⟩ plain⟩, fun limits => limits.precision left⟩

end Conversion

end MultiZone.Printf
