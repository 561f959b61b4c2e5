import MultiZone.Printf.Alternative

/-! The conversions of a directive: which integers are put out as the standard defines it. -/
namespace MultiZone.Printf
open Formatting

/-- The flags that have been evaluated when a conversion is made. -/
def scanFlags (length : Length) (f : Field) : Flags where
  zeropad := f.zero
  left := f.left
  plus := f.plus
  space := f.space
  hash := f.hash
  uppercase := false
  char := length == .hh
  short := length == .hh || length == .h
  long := length == .l || length == .ll || length == .j || length == .z
  longLong := length == .ll
  precision := f.precision.isSome

/-- Of the lengths ll is not converted and t not known. A char is not signed. -/
def Converts (c : Conversion) (w : BitVec 64) : Prop :=
  c.length ≠ .ll ∧ c.length ≠ .t ∧
    (c.kind = .d ∨ c.kind = .i → c.length = .hh → (w.setWidth 8).toNat < 128)

/-- When an unsigned number is put out right, with # or without. -/
def UnsignedLimits (f : Field) (upper : Bool) (base value : Nat) : Prop :=
  let n := (bufDigits upper base value f.precision).length
  if f.hash = true ∧ base ≠ 10 ∧ value ≠ 0 then HashLimits f base n
  else Limits f [] n ∧ (f.hash = true → base = 8 → f.precision ≠ some 0)

def WithinLimits (c : Conversion) (f : Field) (w : BitVec 64) : Prop :=
  match c.kind with
  | .d | .i =>
    let n := signedValue w c.length
    Limits f (sign f n) (bufDigits false 10 n.natAbs f.precision).length
  | .u => UnsignedLimits f false 10 (unsignedValue w c.length)
  | .o => UnsignedLimits f false 8 (unsignedValue w c.length)
  | .x => UnsignedLimits f false 16 (unsignedValue w c.length)
  | .upperX => UnsignedLimits f true 16 (unsignedValue w c.length)
  | _ => True

instance (f : Field) (upper : Bool) (base value : Nat) : Decidable (UnsignedLimits f upper base value) := by
  unfold UnsignedLimits
  infer_instance

instance (c : Conversion) (w : BitVec 64) : Decidable (Converts c w) := by
  unfold Converts
  infer_instance

instance (c : Conversion) (f : Field) (w : BitVec 64) : Decidable (WithinLimits c f w) := by
  unfold WithinLimits
  cases c.kind <;> infer_instance

section Specifiers

variable {f : Field} {length : Length} {w : BitVec 64} {format : Text} {va : List Arg}

theorem bufDigits_short (upper : Bool) {base value : Nat} (one : 1 < base)
    (fits : value < base ^ 22) (precision : Option Nat) :
    (bufDigits upper base value precision).length ≤ 22 := by
  unfold bufDigits
  split
  · exact Nat.zero_le 22
  · rw [List.length_map, Nat.length_toDigits_le_iff one (by decide)]
    exact fits

theorem unsignedValue_lt (w : BitVec 64) (length : Length) : unsignedValue w length < 2 ^ 64 := by
  cases length with
  | none => exact Nat.lt_trans (w.setWidth 32).isLt (by decide)
  | hh => exact Nat.lt_trans (w.setWidth 8).isLt (by decide)
  | h => exact Nat.lt_trans (w.setWidth 16).isLt (by decide)
  | _ => exact w.isLt

theorem signedValue_lt (w : BitVec 64) (length : Length) :
    (signedValue w length).natAbs < 2 ^ 64 := by
  have bound : ∀ {n} (v : BitVec n), n ≤ 64 → v.toInt.natAbs < 2 ^ 64 := by
    intro n v small
    have wide : 2 ^ n ≤ 2 ^ 64 := Nat.pow_le_pow_right (by decide) small
    have low := v.isLt
    rw [BitVec.toInt]
    split <;> omega
  cases length with
  | none => exact bound _ (by decide)
  | hh => exact bound _ (by decide)
  | h => exact bound _ (by decide)
  | _ => exact bound _ (by decide)

theorem bufDigits_some (upper : Bool) (base : Nat) {value : Nat} (some' : value ≠ 0)
    (precision : Option Nat) :
    bufDigits upper base value precision = (Nat.toDigits base value).map (digitByte upper) ∧
      magnitude upper base value precision = (Nat.toDigits base value).map (digitByte upper) :=
  ⟨if_neg fun zero => some' zero.1, if_neg fun zero => some' zero.1⟩

theorem digitByte_zero (upper : Bool) : ∀ d < 16, 0 < d → digitByte upper (Nat.digitChar d) ≠ 48 := by
  cases upper <;> decide

theorem number_zero (f : Field) {body : Text} (few : f.precision.getD 0 ≤ body.length) :
    number f [] (48 :: body) = number f [48] body := by
  have zeros : ∀ n, List.replicate n (48 : UInt8) ++ 48 :: body = 48 :: (List.replicate n 48 ++ body) := by
    intro n
    rw [← List.cons_append, ← List.replicate_succ, List.replicate_succ', List.append_assoc]
    rfl
  have none' : f.precision.getD 0 - body.length = 0 := Nat.sub_eq_zero_of_le few
  have none'' : f.precision.getD 0 - (body.length + 1) = 0 := by omega
  unfold number
  dsimp only
  rw [List.length_cons, none', none'', List.replicate_zero, List.nil_append, List.nil_append]
  split
  · rw [List.length_nil, List.nil_append, zeros, List.length_singleton, List.length_cons, Nat.zero_add,
      Nat.add_comm 1]
    rfl
  · rfl

theorem unsigned_marked {f : Field} {upper : Bool} {base value : Nat} (hash : f.hash = true)
    (known : base = 8 ∨ base = 16) (some' : value ≠ 0) :
    let body := bufDigits upper base value f.precision
    unsigned f upper base value =
      if base = 8 ∧ body.length < f.precision.getD 0 then number f [] body
      else number f (mark upper base) body := by
  obtain ⟨put, std⟩ := bufDigits_some upper base some' f.precision
  unfold unsigned
  dsimp only
  rw [put, std]
  rcases known with rfl | rfl
  · obtain ⟨d, t, positive, digit, head⟩ := toDigits_head (by decide : 1 < 8) some'
    have first : ((Nat.toDigits 8 value).map (digitByte upper)).head? ≠ some 48 := by
      rw [head, List.map_cons, List.head?_cons]
      exact fun same => digitByte_zero upper d (by omega) positive (Option.some.inj same)
    rw [if_neg (by omega)]
    rcases Nat.lt_or_ge ((Nat.toDigits 8 value).map (digitByte upper)).length
        (f.precision.getD 0) with more | few
    · rw [if_neg fun all => absurd all.2.2.2 (Nat.not_le.mpr more), if_pos ⟨rfl, more⟩]
    · rw [if_pos ⟨hash, rfl, first, few⟩, if_neg fun both => absurd both.2 (Nat.not_lt.mpr few),
        number_zero f few]
      rfl
  · have other : ∀ n p : Nat, ¬ (16 = 8 ∧ n < p) := fun _ _ both => absurd both.1 (by decide)
    rw [if_pos ⟨hash, rfl, some'⟩, if_neg (other _ _)]
    rfl

theorem unsigned_plain {f : Field} {upper : Bool} {base value : Nat}
    (plain : ¬ (f.hash = true ∧ base ≠ 10 ∧ value ≠ 0)) :
    unsigned f upper base value =
      if f.hash = true ∧ base = 8 ∧ f.precision = some 0 then number f [] [48]
      else number f [] (bufDigits upper base value f.precision) := by
  rw [← number_magnitude]
  unfold unsigned
  dsimp only
  rw [if_neg fun all => plain ⟨all.1, by rw [all.2.1]; decide, all.2.2⟩]
  rcases Decidable.em (f.hash = true ∧ base = 8) with ⟨hash, rfl⟩ | other
  · have zero : value = 0 := by
      apply Decidable.byContradiction
      intro some'
      exact plain ⟨hash, by decide, some'⟩
    have digit : (Nat.toDigits 8 0).map (digitByte upper) = [48] := by cases upper <;> rfl
    rcases Decidable.em (f.precision = some 0) with none' | some'
    · have body : magnitude upper 8 value f.precision = [] := if_pos ⟨zero, none'⟩
      rw [body, if_pos ⟨hash, rfl, by simp, by rw [none']; exact Nat.le_refl 0⟩,
        if_pos ⟨hash, rfl, none'⟩]
    · have body : magnitude upper 8 value f.precision = [48] := by
        rw [magnitude, if_neg fun both => some' both.2, zero, digit]
      rw [body, if_neg (by simp), if_neg (by simp [some'])]
  · rw [if_neg fun all => other ⟨all.1, all.2.1⟩, if_neg fun all => other ⟨all.1, all.2.1⟩]

theorem hash_cleared {f : Field} {flags : Flags} {base value : Nat}
    (hash : flags.hash = (f.hash && base != 10))
    (plain : ¬ (f.hash = true ∧ base ≠ 10 ∧ value ≠ 0)) :
    (if value = 0 then { flags with hash := false } else flags).hash = false := by
  split
  · rfl
  · rename_i some'
    rw [hash]
    rcases Decidable.em (f.hash = true) with set | unset
    · have ten : base = 10 := by
        apply Decidable.byContradiction
        intro other
        exact plain ⟨set, other, some'⟩
      rw [ten]
      exact Bool.and_false _
    · rw [Bool.eq_false_iff.mpr unset]
      rfl

theorem noDigits_limits {f : Field} (none' : f.precision = some 0) : Limits f [] 0 := by
  refine ⟨fun _ => ?_, fun _ => .inl ?_, fun _ _ wrong => ?_⟩
  · rw [none', Option.getD_some]
  · rw [none']
    decide
  · rw [none'] at wrong
    cases wrong

/-- The zero that the standard wants and mss_printf leaves out. -/
theorem noDigits_apart {f : Field} (none' : f.precision = some 0) :
    number f [] [] ≠ number f [] [48] := by
  intro same
  have inks := congrArg ink same
  have plain : ¬ (f.zero = true ∧ f.left = false ∧ f.precision = none) := by
    rintro ⟨-, -, wrong⟩
    rw [none'] at wrong
    cases wrong
  rw [number_plain plain, number_plain plain, ink_pad, ink_pad, none'] at inks
  cases inks

theorem ntoaFormat_unmarked {f : Field} {flags : Flags} {upper : Bool} {base value : Nat}
    (agree : Agree f flags) (cleared : flags.hash = false) (noLead : lead false flags = [])
    (short : (bufDigits upper base value f.precision).length ≤ 30)
    (plain : ¬ (f.hash = true ∧ base ≠ 10 ∧ value ≠ 0)) :
    ntoaFormat (bufDigits upper base value f.precision) false base (f.precision.getD 0) f.width
        flags = unsigned f upper base value ↔
      Limits f [] (bufDigits upper base value f.precision).length ∧
        (f.hash = true → base = 8 → f.precision ≠ some 0) := by
  have right : ntoaFormat (bufDigits upper base value f.precision) false base (f.precision.getD 0)
      f.width flags = number f [] (bufDigits upper base value f.precision) ↔
        Limits f [] (bufDigits upper base value f.precision).length := by
    rw [← noLead]
    exact ntoaFormat_number agree cleared short
  rw [unsigned_plain plain]
  rcases Decidable.em (f.hash = true ∧ base = 8 ∧ f.precision = some 0) with special | rest
  · have ⟨set, octal, none'⟩ := special
    have nothing : bufDigits upper base value f.precision = [] := by
      have zero : value = 0 := by
        apply Decidable.byContradiction
        intro some'
        exact plain ⟨set, by omega, some'⟩
      rw [bufDigits, zero, none']
      rfl
    rw [nothing] at right ⊢
    rw [right.mpr (noDigits_limits none'), if_pos special]
    constructor
    · exact fun same => absurd same (noDigits_apart none')
    · exact fun all => absurd none' (all.2 set octal)
  · rw [if_neg rest, right]
    exact ⟨fun limits => ⟨limits, fun set octal none' => rest ⟨set, octal, none'⟩⟩, fun all => all.1⟩

/-- An unsigned number is put out as the standard defines it exactly if it keeps the limits. -/
theorem ntoaLong_unsigned (f : Field) (flags : Flags) (upper : Bool) {base value : Nat}
    (known : base = 8 ∨ base = 10 ∨ base = 16) (fits : value < 2 ^ 64)
    (hash : flags.hash = (f.hash && base != 10)) (agree : Agree f flags)
    (uppercase : flags.uppercase = upper) (noLead : flags.plus = false ∧ flags.space = false) :
    ntoaLong value false base (f.precision.getD 0) f.width flags = unsigned f upper base value ↔
      UnsignedLimits f upper base value := by
  have one : 1 < base := by omega
  have large : value < base ^ 22 := by
    apply Nat.lt_of_lt_of_le fits
    exact Nat.le_trans (by decide : 2 ^ 64 ≤ 8 ^ 22) (Nat.pow_le_pow_left (by omega) 22)
  have large' : value < base ^ 32 := Nat.lt_of_lt_of_le large (Nat.pow_le_pow_right (by omega) (by decide))
  have short := bufDigits_short upper one large f.precision
  rw [ntoaLong_digits upper one (by omega) large' agree uppercase]
  unfold UnsignedLimits
  dsimp only
  rcases Decidable.em (f.hash = true ∧ base ≠ 10 ∧ value ≠ 0) with ⟨set, other, some'⟩ | plain
  · have known' : base = 8 ∨ base = 16 := by omega
    have flag : flags.hash = true := by
      rw [hash, set, Bool.true_and, bne_iff_ne]
      exact other
    have digits : (bufDigits upper base value f.precision).length ≠ 0 := by
      obtain ⟨d, t, -, -, head⟩ := toDigits_head one some'
      rw [(bufDigits_some upper base some' f.precision).1, head]
      exact Nat.succ_ne_zero _
    rw [if_neg some', if_pos ⟨set, other, some'⟩, unsigned_marked set known' some']
    exact ntoaFormat_marked agree flag noLead uppercase known' short digits
  · have agree' : Agree f (if value = 0 then { flags with hash := false } else flags) := by
      split
      · exact agree.clear
      · exact agree
    have lead' : lead false (if value = 0 then { flags with hash := false } else flags) = [] := by
      split <;> simp only [lead, noLead.1, noLead.2, Bool.false_eq_true, if_false]
    rw [if_neg plain]
    exact ntoaFormat_unmarked agree' (hash_cleared hash plain) lead' (by omega) plain

theorem ntoaLong_signed (f : Field) (flags : Flags) {n : Int} (fits : n.natAbs < 2 ^ 64)
    (plain : flags.hash = false) (agree : Agree f flags) (uppercase : flags.uppercase = false)
    (leads : lead (n < 0) flags = sign f n) :
    ntoaLong n.natAbs (n < 0) 10 (f.precision.getD 0) f.width flags = signed f n ↔
      Limits f (sign f n) (bufDigits false 10 n.natAbs f.precision).length := by
  have large : n.natAbs < 10 ^ 22 := Nat.lt_trans fits (by decide)
  have short := bufDigits_short false (by decide : 1 < 10) large f.precision
  rw [ntoaLong_digits false (by decide) (by decide) (Nat.lt_trans large (by decide)) agree
    uppercase, signed, number_magnitude, ← leads]
  have cleared : (if n.natAbs = 0 then { flags with hash := false } else flags) = flags := by
    split
    · rw [← plain]
    · rfl
  rw [cleared]
  exact ntoaFormat_number agree plain (by omega)

theorem scan_unsigned (known : length ≠ .t) :
    (if (scanFlags length f).long then w.toNat
      else if (scanFlags length f).char then (w.setWidth 8).toNat
      else if (scanFlags length f).short then (w.setWidth 16).toNat
      else (w.setWidth 32).toNat) = unsignedValue w length := by
  cases length with
  | t => exact absurd rfl known
  | _ => rfl

theorem scan_signed (known : length ≠ .t) (char : length = .hh → (w.setWidth 8).toNat < 128) :
    (if (scanFlags length f).long then w.toInt
      else if (scanFlags length f).char then ((w.setWidth 8).toNat : Int)
      else if (scanFlags length f).short then (w.setWidth 16).toInt
      else (w.setWidth 32).toInt) = signedValue w length := by
  cases length with
  | t => exact absurd rfl known
  | hh =>
    have positive := char rfl
    have same : signedValue w .hh = ((w.setWidth 8).toNat : Int) := by
      rw [signedValue, BitVec.toInt, if_pos (by omega)]
    rw [same]
    rfl
  | _ => rfl

theorem signs (n : Int) (flags : Flags) (plus : flags.plus = f.plus) (space : flags.space = f.space) :
    lead (n < 0) flags = sign f n := by
  unfold lead sign
  rw [plus, space]
  simp only [decide_eq_true_eq]

def keptFlags (length : Length) (f : Field) (upper isSigned : Bool) (base : Nat) : Flags :=
  { scanFlags length f with
    hash := f.hash && base != 10
    uppercase := upper
    plus := f.plus && isSigned
    space := f.space && isSigned
    zeropad := f.zero && !f.precision.isSome }

theorem keptFlags_agree (length : Length) (f : Field) (upper isSigned : Bool) (base : Nat) :
    Agree f (keptFlags length f upper isSigned base) where
  left := rfl
  zeropad := by
    change (f.zero && !f.precision.isSome) = (f.zero && f.precision.isNone)
    cases f.precision <;> rfl
  precision := rfl

theorem convertInteger_signed {specifier : UInt8} (isSigned : specifier = 100 ∨ specifier = 105)
    (noLongLong : length ≠ .ll) (known : length ≠ .t)
    (char : length = .hh → (w.setWidth 8).toNat < 128) :
    convertInteger specifier
        ⟨format, scanFlags length f, f.width, f.precision.getD 0, .word w :: va⟩ =
      .ok (ntoaLong (signedValue w length).natAbs (signedValue w length < 0) 10
        (f.precision.getD 0) f.width (keptFlags length f false true 10), va) := by
  have value := scan_signed (f := f) known char
  have longLong : ¬ (scanFlags length f).longLong = true := by
    rw [show (scanFlags length f).longLong = false from beq_false_of_ne noLongLong]
    decide
  unfold convertInteger
  dsimp only
  rw [if_neg longLong, value]
  rcases isSigned with rfl | rfl
  · rw [if_pos (by decide)]
    rfl
  · rw [if_pos (by decide)]
    rfl

theorem convertInteger_unsigned {k : Kind} {upper : Bool} {base : Nat}
    (kinds : k = .u ∧ upper = false ∧ base = 10 ∨ k = .o ∧ upper = false ∧ base = 8 ∨
      k = .x ∧ upper = false ∧ base = 16 ∨ k = .upperX ∧ upper = true ∧ base = 16)
    (noLongLong : length ≠ .ll) (known : length ≠ .t) :
    convertInteger k.byte
        ⟨format, scanFlags length f, f.width, f.precision.getD 0, .word w :: va⟩ =
      .ok (ntoaLong (unsignedValue w length) false base
        (f.precision.getD 0) f.width (keptFlags length f upper false base), va) := by
  have value := scan_unsigned (f := f) (w := w) known
  have longLong : ¬ (scanFlags length f).longLong = true := by
    rw [show (scanFlags length f).longLong = false from beq_false_of_ne noLongLong]
    decide
  unfold convertInteger
  dsimp only
  rw [if_neg longLong, value]
  rcases kinds with ⟨rfl, rfl, rfl⟩ | ⟨rfl, rfl, rfl⟩ | ⟨rfl, rfl, rfl⟩ | ⟨rfl, rfl, rfl⟩
  all_goals
    rw [if_neg (by decide)]
    rfl

/-- Whatever the flags, the width and the precision, an integer is put out as the standard
defines it exactly if it keeps the limits. -/
theorem convertInteger_written (c : Conversion) (f : Field) (w : BitVec 64) (format : Text)
    (va : List Arg) (integer : c.kind ≠ .c ∧ c.kind ≠ .s) (converts : Converts c w) :
    ∃ out written, convertInteger c.kind.byte
        ⟨format, scanFlags c.length f, f.width, f.precision.getD 0, .word w :: va⟩ = .ok (out, va) ∧
      c.written f (.word w) = some written ∧ (out = written ↔ WithinLimits c f w) := by
  obtain ⟨noLongLong, known, char⟩ := converts
  have unsignedFits := unsignedValue_lt w c.length
  have signedFits := signedValue_lt w c.length
  unfold Conversion.written WithinLimits
  cases kind : c.kind with
  | d => exact ⟨_, _, convertInteger_signed (.inl rfl) noLongLong known (char (.inl kind)), rfl,
      ntoaLong_signed f _ signedFits (Bool.and_false _) (keptFlags_agree _ _ _ _ _) rfl
        (signs _ _ (Bool.and_true _) (Bool.and_true _))⟩
  | i => exact ⟨_, _, convertInteger_signed (.inr rfl) noLongLong known (char (.inr kind)), rfl,
      ntoaLong_signed f _ signedFits (Bool.and_false _) (keptFlags_agree _ _ _ _ _) rfl
        (signs _ _ (Bool.and_true _) (Bool.and_true _))⟩
  | c => exact absurd kind integer.1
  | s => exact absurd kind integer.2
  | u => exact ⟨_, _, convertInteger_unsigned (.inl ⟨rfl, rfl, rfl⟩) noLongLong known, rfl,
      ntoaLong_unsigned f _ false (.inr (.inl rfl)) unsignedFits rfl
        (keptFlags_agree _ _ _ _ _) rfl ⟨Bool.and_false _, Bool.and_false _⟩⟩
  | o => exact ⟨_, _, convertInteger_unsigned (.inr (.inl ⟨rfl, rfl, rfl⟩)) noLongLong known, rfl,
      ntoaLong_unsigned f _ false (.inl rfl) unsignedFits rfl
        (keptFlags_agree _ _ _ _ _) rfl ⟨Bool.and_false _, Bool.and_false _⟩⟩
  | x => exact ⟨_, _, convertInteger_unsigned (.inr (.inr (.inl ⟨rfl, rfl, rfl⟩))) noLongLong known,
      rfl, ntoaLong_unsigned f _ false (.inr (.inr rfl)) unsignedFits rfl
        (keptFlags_agree _ _ _ _ _) rfl ⟨Bool.and_false _, Bool.and_false _⟩⟩
  | upperX => exact ⟨_, _, convertInteger_unsigned (.inr (.inr (.inr ⟨rfl, rfl, rfl⟩))) noLongLong
      known, rfl, ntoaLong_unsigned f _ true (.inr (.inr rfl)) unsignedFits rfl
        (keptFlags_agree _ _ _ _ _) rfl ⟨Bool.and_false _, Bool.and_false _⟩⟩

end Specifiers

end MultiZone.Printf
