import MultiZone.Printf.Specifiers

/-! A format of conversions that are within the limits is put out as the standard defines it. The
parts of a directive are told apart by their first character. -/
namespace MultiZone.Printf
open Formatting

section Scanning

theorem digitChar_byte : ∀ d < 10,
    UInt8.ofNat (Nat.digitChar d).toNat = UInt8.ofNat (48 + d) := by
  decide

theorem digit_read : ∀ d < 10, isDigit (UInt8.ofNat (48 + d)) = true ∧
    (UInt8.ofNat (48 + d)).toNat - 48 = d := by
  decide

theorem digits_small {n : Nat} (small : n < 10) : digits n = [UInt8.ofNat (48 + n)] := by
  rw [digits, Nat.toDigits_of_lt_base small, List.map_singleton, digitChar_byte n small]

theorem digits_large {n : Nat} (large : 10 ≤ n) :
    digits n = digits (n / 10) ++ [UInt8.ofNat (48 + n % 10)] := by
  rw [digits, Nat.toDigits_of_base_le (by decide) large, List.map_append, List.map_singleton,
    digitChar_byte (n % 10) (Nat.mod_lt n (by decide))]
  rfl

theorem atoi_digits (n : Nat) (rest : Text) :
    atoi 0 (digits n ++ rest) = atoi (n % 2 ^ 32) rest := by
  induction n using Nat.strong_induction_on generalizing rest with
  | _ n ih =>
    rcases Nat.lt_or_ge n 10 with small | large
    · obtain ⟨digit, value⟩ := digit_read n small
      rw [digits_small small, List.singleton_append, atoi, if_pos digit, value, Nat.zero_mul, Nat.zero_add]
    · obtain ⟨digit, value⟩ := digit_read (n % 10) (Nat.mod_lt n (by decide))
      have sum : (n / 10 % 2 ^ 32 * 10 + n % 10) % 2 ^ 32 = n % 2 ^ 32 := by omega
      rw [digits_large large, List.append_assoc, ih (n / 10) (by omega), List.singleton_append, atoi,
        if_pos digit, value, sum]

theorem digits_head (n : Nat) : ∃ c t, digits n = c :: t ∧ isDigit c = true ∧ (n ≠ 0 → c ≠ 48) := by
  rcases Nat.eq_zero_or_pos n with rfl | positive
  · exact ⟨48, [], rfl, rfl, fun some' => absurd rfl some'⟩
  · obtain ⟨d, t, some', digit, head⟩ := toDigits_head (by decide : 1 < 10) (Nat.ne_of_gt positive)
    have byte : ∀ d < 10, 0 < d → isDigit (UInt8.ofNat (Nat.digitChar d).toNat) = true ∧
        UInt8.ofNat (Nat.digitChar d).toNat ≠ 48 := by
      decide
    rw [digits, head]
    exact ⟨_, _, rfl, (byte d digit some').1, fun _ => (byte d digit some').2⟩

/-- A character that ends the flags. -/
def EndsFlags (c : UInt8) : Prop := c ≠ 48 ∧ c ≠ 45 ∧ c ≠ 43 ∧ c ≠ 32 ∧ c ≠ 35

theorem evalFlags_text (flags : List Flag) {c : UInt8} (ends : EndsFlags c) (t : Text) (s : Flags) :
    evalFlags (flags.map Flag.byte ++ c :: t) s = (c :: t, { s with
      zeropad := s.zeropad || decide (.zero ∈ flags)
      left := s.left || decide (.minus ∈ flags)
      plus := s.plus || decide (.plus ∈ flags)
      space := s.space || decide (.space ∈ flags)
      hash := s.hash || decide (.hash ∈ flags) }) := by
  induction flags generalizing s with
  | nil =>
    obtain ⟨zero, minus, plus, space, hash⟩ := ends
    rw [List.map_nil, List.nil_append, evalFlags, if_neg zero, if_neg minus, if_neg plus, if_neg space,
      if_neg hash]
    simp
  | cons flag flags ih => cases flag <;> simp [evalFlags, Flag.byte, ih]

theorem length_head (len : Length) (k : Kind) (rest : Text) :
    ∃ c t, len.text ++ k.byte :: rest = c :: t ∧ EndsFlags c ∧ isDigit c = false ∧ c ≠ 42 ∧ c ≠ 46 := by
  unfold EndsFlags
  cases len with
  | none => cases k <;> exact ⟨_, _, rfl, by decide⟩
  | _ => exact ⟨_, _, rfl, by decide⟩

theorem precision_head (p : Precision) (len : Length) (k : Kind) (rest : Text) :
    ∃ c t, p.text ++ (len.text ++ k.byte :: rest) = c :: t ∧ EndsFlags c ∧ isDigit c = false ∧ c ≠ 42 := by
  obtain ⟨c, t, head, ends, other, star, -⟩ := length_head len k rest
  unfold EndsFlags at ends ⊢
  cases p with
  | none => exact ⟨c, t, head, ends, other, star⟩
  | _ => exact ⟨_, _, rfl, by decide⟩

theorem width_head {w : Width} (wf : w ≠ .given 0) (p : Precision) (len : Length) (k : Kind) (rest : Text) :
    ∃ c t, w.text ++ (p.text ++ (len.text ++ k.byte :: rest)) = c :: t ∧ EndsFlags c := by
  obtain ⟨c, t, head, ends, -⟩ := precision_head p len k rest
  unfold EndsFlags at ends ⊢
  cases w with
  | none => exact ⟨c, t, head, ends⟩
  | arg => exact ⟨_, _, rfl, by decide⟩
  | given n =>
    obtain ⟨d, t, digits, digit, zero⟩ := digits_head n
    have some' : n ≠ 0 := by
      rintro rfl
      exact wf rfl
    have others : ∀ d : UInt8, isDigit d = true → d ≠ 45 ∧ d ≠ 43 ∧ d ≠ 32 ∧ d ≠ 35 := by
      intro d digit
      refine ⟨?_, ?_, ?_, ?_⟩ <;>
        · rintro rfl
          cases digit
    exact ⟨d, t ++ _, by rw [Width.text, digits]; rfl, zero some', others d digit⟩

theorem atoi_stop {c : UInt8} (other : isDigit c = false) (n : Nat) (t : Text) :
    atoi n (c :: t) = (n, c :: t) := by
  rw [atoi, other, if_neg Bool.false_ne_true]

theorem evalWidth_text {w : Width} {left : Bool} {n : Nat} {va va' : List Arg}
    (value : w.value va = some (left, n, va')) (small : ∀ n, w = .given n → n < 2 ^ 32)
    {c : UInt8} {t : Text} (other : isDigit c = false) (star : c ≠ 42) (flags : Flags) :
    evalWidth ⟨w.text ++ c :: t, flags, 0, 0, va⟩ =
      .ok ⟨c :: t, { flags with left := flags.left || left }, n, 0, va'⟩ := by
  cases w with
  | none =>
    cases value
    simp [evalWidth, Width.text, other, star]
  | given m =>
    cases value
    obtain ⟨d, u, head, digit, -⟩ := digits_head n
    have read := atoi_digits n (c :: t)
    rw [Nat.mod_eq_of_lt (small n rfl), atoi_stop other, head, List.cons_append] at read
    rw [Width.text, head, List.cons_append]
    simp [evalWidth, digit, read]
  | arg =>
    dsimp only [Width.value] at value
    split at value
    · rename_i w va
      cases value
      have star' : isDigit 42 = false := rfl
      rcases Decidable.em (int w < 0) with negative | positive
      · simp only [evalWidth, Width.text, List.singleton_append, star', Bool.false_eq_true, if_false,
          if_true, vaInt, bind, Except.bind, negative, decide_true, Bool.or_true, pure, Except.pure]
      · have amount : (int w).toNat = (int w).natAbs := by omega
        simp only [evalWidth, Width.text, List.singleton_append, star', Bool.false_eq_true, if_false,
          if_true, vaInt, bind, Except.bind, positive, decide_false, Bool.or_false, pure, Except.pure,
          amount]
    · cases value

theorem evalPrecision_text {p : Precision} {n : Option Nat} {va va' : List Arg}
    (value : p.value va = some (n, va')) (small : ∀ n, p = .given n → n < 2 ^ 32)
    (positive : p = .arg → n ≠ none) {c : UInt8} {t : Text} (other : isDigit c = false)
    (star : c ≠ 42) (point : c ≠ 46) (flags : Flags) (precision : flags.precision = false)
    (width : Nat) :
    evalPrecision ⟨p.text ++ c :: t, flags, width, 0, va⟩ =
      .ok ⟨c :: t, { flags with precision := n.isSome }, width, n.getD 0, va'⟩ := by
  cases p with
  | none =>
    cases value
    simp [evalPrecision, Precision.text, point, ← precision]
  | point =>
    cases value
    simp [evalPrecision, Precision.text, other, star]
  | given m =>
    cases value
    obtain ⟨d, u, head, digit, -⟩ := digits_head m
    have read := atoi_digits m (c :: t)
    rw [Nat.mod_eq_of_lt (small m rfl), atoi_stop other, head, List.cons_append] at read
    rw [Precision.text, head, List.cons_append, List.cons_append]
    simp [evalPrecision, digit, read]
  | arg =>
    dsimp only [Precision.value] at value
    split at value
    · rename_i w va
      have star' : isDigit 42 = false := rfl
      rcases Decidable.em (int w < 0) with negative | nonnegative
      · rw [if_pos negative] at value
        cases value
        exact absurd rfl (positive rfl)
      · rw [if_neg nonnegative] at value
        cases value
        have amount : (if int w > 0 then (int w).toNat else 0) = (int w).toNat := by
          split <;> omega
        simp only [evalPrecision, Precision.text, List.cons_append, List.nil_append, star',
          Bool.false_eq_true, if_false, if_true, vaInt, bind, Except.bind, pure, Except.pure, amount,
          Option.isSome_some, Option.getD_some]
    · cases value

theorem evalLength_text {len : Length} (known : len ≠ .t) (k : Kind) (rest : Text) (flags : Flags) :
    evalLength (len.text ++ k.byte :: rest) flags = (k.byte :: rest, { flags with
      char := flags.char || len == .hh
      short := flags.short || (len == .hh || len == .h)
      long := flags.long || (len == .l || len == .ll || len == .j || len == .z)
      longLong := flags.longLong || len == .ll }) := by
  cases len with
  | t => exact absurd rfl known
  | none => cases k <;> simp [evalLength, Length.text, Kind.byte, beq_eq_decide]
  | l => cases k <;> simp [evalLength, Length.text, Kind.byte]
  | h => cases k <;> simp [evalLength, Length.text, Kind.byte]
  | _ => simp [evalLength, Length.text]

end Scanning

section Directives

/-- The fields of a conversion that are read as they are meant: no number is more than an unsigned
int, and a precision that is an argument is not negative. -/
structure Readable (c : Conversion) (f : Field) : Prop where
  width : ∀ n, c.width = .given n → n < 2 ^ 32
  precision : ∀ n, c.precision = .given n → n < 2 ^ 32
  star : c.precision = .arg → f.precision ≠ none
  length : c.length ≠ .t

/-- The conversion that a directive makes. -/
def convert (k : Kind) (s : Scan) : Except Undefined (Text × List Arg) :=
  match k with
  | .c => convertChar s
  | .s => convertString s
  | _ => convertInteger k.byte s

theorem directive_text {c : Conversion} {f : Field} {va va' : List Arg} (wf : c.width ≠ .given 0)
    (field : c.field va = some (f, va')) (readable : Readable c f) (rest : Text) :
    ∃ format, directive (c.text ++ rest) va =
      (convert c.kind ⟨format, scanFlags c.length f, f.width, f.precision.getD 0, va'⟩).map
        fun r => (r.1, rest, r.2) := by
  unfold Conversion.field at field
  obtain ⟨⟨left, width, va₁⟩, widths, field⟩ := Option.bind_eq_some_iff.mp field
  obtain ⟨⟨precision, va₂⟩, precisions, field⟩ := Option.bind_eq_some_iff.mp field
  cases field
  obtain ⟨c₀, t₀, head₀, ends⟩ := width_head wf c.precision c.length c.kind rest
  obtain ⟨c₁, t₁, head₁, -, other₁, star₁⟩ := precision_head c.precision c.length c.kind rest
  obtain ⟨c₂, t₂, head₂, -, other₂, star₂, point₂⟩ := length_head c.length c.kind rest
  have parts : c.text ++ rest = c.flags.map Flag.byte ++
      (c.width.text ++ (c.precision.text ++ (c.length.text ++ c.kind.byte :: rest))) := by
    simp only [Conversion.text, List.append_assoc, List.singleton_append]
  have widthRead := evalWidth_text widths readable.width other₁ star₁ (t := t₁)
  have precisionRead := evalPrecision_text precisions readable.precision readable.star other₂ star₂
    point₂ (t := t₂)
  rw [← head₁] at widthRead
  rw [← head₂] at precisionRead
  refine ⟨c.length.text ++ c.kind.byte :: rest, ?_⟩
  rw [parts, head₀, directive, evalFlags_text _ ends, ← head₀]
  dsimp only
  rw [widthRead]
  dsimp only [bind, Except.bind]
  rw [precisionRead _ rfl]
  dsimp only
  rw [evalLength_text readable.length]
  dsimp only
  have flags : (⟨false || decide (.zero ∈ c.flags), false || decide (.minus ∈ c.flags) || left,
      false || decide (.plus ∈ c.flags), false || decide (.space ∈ c.flags),
      false || decide (.hash ∈ c.flags), false, false || c.length == .hh,
      false || (c.length == .hh || c.length == .h),
      false || (c.length == .l || c.length == .ll || c.length == .j || c.length == .z),
      false || c.length == .ll, precision.isSome⟩ : Flags) =
      scanFlags c.length ⟨left || .minus ∈ c.flags, .plus ∈ c.flags, .space ∈ c.flags,
        .hash ∈ c.flags, .zero ∈ c.flags, width, precision⟩ := by
    simp only [Bool.false_or, Bool.or_comm _ left]
    rfl
  rw [flags]
  unfold convert
  cases c.kind with
  | c => rfl
  | s => rfl
  | _ => rfl

/-- What an argument has to keep to be put out as the standard defines it. -/
def ArgLimits (c : Conversion) (f : Field) : Arg → Prop
  | .word w => c.kind = .c ∨ Converts c w ∧ WithinLimits c f w
  | .str s => f.precision.getD s.length < 2 ^ 32

instance (c : Conversion) (f : Field) (arg : Arg) : Decidable (ArgLimits c f arg) := by
  cases arg <;>
    · unfold ArgLimits
      infer_instance

theorem convertChar_written {f : Field} (w : BitVec 64) (len : Length) (format : Text)
    (va : List Arg) :
    convertChar ⟨format, scanFlags len f, f.width, f.precision.getD 0, .word w :: va⟩ =
      .ok (pad f [UInt8.ofBitVec (w.setWidth 8)], va) := by
  unfold convertChar pad scanFlags
  dsimp only
  cases f.left <;> rfl

theorem convertString_written {f : Field} {s : Text} (small : f.precision.getD s.length < 2 ^ 32)
    (len : Length) (format : Text) (va : List Arg) :
    convertString ⟨format, scanFlags len f, f.width, f.precision.getD 0, .str s :: va⟩ =
      .ok (pad f (match f.precision with
        | none => s
        | some n => s.take n), va) := by
  have shown : (match f.precision with
      | none => s
      | some n => s.take n) = if f.precision.isSome then s.take (f.precision.getD 0) else s := by
    cases f.precision <;> rfl
  have size : (let l := strnlen s (if f.precision.getD 0 ≠ 0 then f.precision.getD 0 else 2 ^ 64 - 1)
      if f.precision.isSome then (if l < f.precision.getD 0 then l else f.precision.getD 0) else l) =
      (if f.precision.isSome then s.take (f.precision.getD 0) else s).length := by
    unfold strnlen
    cases precision : f.precision with
    | none =>
      rw [precision, Option.getD_none] at small
      simp only [Option.getD_none, ne_eq, not_true_eq_false, if_false, Option.isSome_none,
        Bool.false_eq_true]
      omega
    | some n =>
      rw [precision, Option.getD_some] at small
      simp only [Option.getD_some, Option.isSome_some, if_true, List.length_take]
      split <;> split <;> omega
  simp only [convertString, scanFlags] at size ⊢
  rw [size, shown]
  unfold pad
  dsimp only
  cases f.left <;> rfl

theorem convert_written {c : Conversion} {f : Field} {arg : Arg} {t : Text}
    (written : c.written f arg = some t) (limits : ArgLimits c f arg) (format : Text) (va : List Arg) :
    convert c.kind ⟨format, scanFlags c.length f, f.width, f.precision.getD 0, arg :: va⟩ =
      .ok (t, va) := by
  cases arg with
  | str s =>
    unfold Conversion.written at written
    cases kind : c.kind with
    | s =>
      rw [kind] at written
      dsimp only at written
      split at written
      · cases written
        exact convertString_written limits c.length format va
      · cases written
    | _ =>
      rw [kind] at written
      cases written
  | word w =>
    rcases Decidable.em (c.kind = .c) with char | other
    · unfold Conversion.written at written
      rw [char] at written ⊢
      dsimp only at written
      split at written
      · cases written
        exact convertChar_written w c.length format va
      · cases written
    · have string : c.kind ≠ .s := by
        intro kind
        rw [Conversion.written, kind] at written
        cases written
      obtain ⟨converts, within⟩ := limits.resolve_left other
      obtain ⟨out, std, put, written', right⟩ :=
        convertInteger_written c f w format va ⟨other, string⟩ converts
      rw [written] at written'
      cases written'
      rw [right.mpr within] at put
      have same : convert c.kind = convertInteger c.kind.byte := by
        unfold convert
        cases kind : c.kind with
        | c => exact absurd kind other
        | s => exact absurd kind string
        | _ => rfl
      rw [same]
      exact put

end Directives

section Runs

theorem directive_percent (rest : Text) (va : List Arg) :
    directive (percent :: rest) va = .ok ([percent], rest, va) := rfl

/-- Each conversion of a format keeps its limits with the arguments it takes. -/
def Keeps : List Piece → List Arg → Prop
  | [], _ => True
  | .literal _ :: ps, va => Keeps ps va
  | .percent :: ps, va => Keeps ps va
  | .conversion c :: ps, va => ∀ f arg va', c.field va = some (f, arg :: va') →
    Readable c f ∧ ArgLimits c f arg ∧ Keeps ps va'

theorem putOut_render {ps : List Piece} (wf : ∀ p ∈ ps, p.WellFormed) {va : List Arg} {t : Text}
    (std : render ps va = some t) (keeps : Keeps ps va) {rounds : Nat}
    (enough : (formatText ps).length ≤ rounds) : putOut rounds (formatText ps) va = .ok t := by
  induction ps generalizing va t rounds with
  | nil =>
    cases std
    cases rounds <;> rfl
  | cons p ps ih =>
    have wf' := fun q later => wf q (List.mem_cons_of_mem p later)
    have first := wf p List.mem_cons_self
    have split' : formatText (p :: ps) = p.text ++ formatText ps := List.flatMap_cons
    have some' : p.text.length ≠ 0 := by cases p <;> exact Nat.succ_ne_zero _
    rw [split', List.length_append] at enough
    rw [split']
    obtain ⟨rounds, rfl⟩ := Nat.exists_eq_add_one_of_ne_zero (by omega : rounds ≠ 0)
    have left : (formatText ps).length ≤ rounds := by omega
    cases p with
    | literal c =>
      obtain ⟨out, later, rfl⟩ := Option.map_eq_some_iff.mp std
      simp only [Piece.text, List.singleton_append, putOut]
      have plain : c ≠ 37 := first.2
      rw [if_pos plain, ih wf' later keeps left]
      rfl
    | percent =>
      obtain ⟨out, later, rfl⟩ := Option.map_eq_some_iff.mp std
      simp only [Piece.text, List.cons_append, List.nil_append, putOut]
      rw [if_neg (by decide), directive_percent]
      dsimp only [bind, Except.bind]
      rw [ih wf' later keeps left]
      rfl
    | conversion c =>
      obtain ⟨⟨f, args⟩, field, std'⟩ := Option.bind_eq_some_iff.mp std
      cases args with
      | nil => cases std'
      | cons arg va' =>
        obtain ⟨out, written, std''⟩ := Option.bind_eq_some_iff.mp std'
        obtain ⟨out', later, same⟩ := Option.bind_eq_some_iff.mp std''
        cases same
        obtain ⟨readable, limits, keeps'⟩ := keeps f arg va' field
        obtain ⟨format, read⟩ := directive_text first field readable (formatText ps)
        rw [convert_written written limits] at read
        simp only [Piece.text, List.cons_append, putOut]
        rw [if_neg (by decide), read]
        dsimp only [bind, Except.bind, Except.map]
        rw [ih wf' later keeps' left]
        rfl

end Runs

section Buffers

theorem intoBuffer_eq {maxlen : Nat} (fits : maxlen < 2 ^ 64) (idx : Nat) (out : Text)
    (buffer : Nat → UInt8) (i : Nat) :
    intoBuffer maxlen idx out buffer i =
      if 0 < maxlen ∧ i = min (idx + out.length) (maxlen - 1) then 0
      else if idx ≤ i ∧ i < idx + out.length ∧ i < maxlen then out.getD (i - idx) 0
      else buffer i := by
  induction out generalizing idx buffer with
  | nil =>
    have last : (if idx < maxlen then idx else (maxlen + (2 ^ 64 - 1)) % 2 ^ 64) < maxlen ↔
        0 < maxlen := by
      split <;> omega
    have place : 0 < maxlen → (if idx < maxlen then idx else (maxlen + (2 ^ 64 - 1)) % 2 ^ 64) =
        min idx (maxlen - 1) := by
      intro some'
      split <;> omega
    rw [intoBuffer, outBuffer, List.length_nil, Nat.add_zero, if_congr last rfl rfl]
    rcases Nat.eq_zero_or_pos maxlen with none' | some'
    · rw [if_neg (by omega), if_neg (by omega), if_neg (by omega)]
    · rw [if_pos some', place some', Function.update_apply]
      split
      · rename_i terminator
        rw [if_pos ⟨some', terminator⟩]
      · rename_i other
        rw [if_neg fun both => other both.2, if_neg (by omega)]
  | cons c out ih =>
    have total : idx + 1 + out.length = idx + (c :: out).length := by
      rw [List.length_cons]
      omega
    rw [intoBuffer, ih, total]
    split
    · rfl
    · rcases Nat.lt_trichotomy i idx with before | rfl | after
      · rw [if_neg (by omega), if_neg (by omega), outBuffer]
        split
        · exact Function.update_of_ne (Nat.ne_of_lt before) _ _
        · rfl
      · rw [if_neg (by omega), outBuffer, Nat.sub_self, List.getD_cons_zero]
        split
        · rw [Function.update_self, if_pos ⟨Nat.le_refl _, by omega, ‹_›⟩]
        · rw [if_neg fun all => absurd all.2.2 ‹_›]
      · have index : i - idx = i - (idx + 1) + 1 := by omega
        have rest : outBuffer c buffer idx maxlen i = buffer i := by
          unfold outBuffer
          split
          · exact Function.update_of_ne (Nat.ne_of_gt after) _ _
          · rfl
        rw [index, List.getD_cons_succ, rest]
        apply if_congr _ rfl rfl
        omega

/-- What does not fit into the buffer is left out, and what is behind the terminator is not
written. -/
theorem snprintf_buffer (buffer : Nat → UInt8) {count : Nat} (fits : count < 2 ^ 64) {format t : Text}
    {va : List Arg} (put : vsnprintf format va = .ok t) :
    ∃ buffer', snprintf buffer count format va = .ok (buffer', (BitVec.ofNat 32 t.length).toInt) ∧
      (List.range (min t.length (count - 1))).map buffer' = t.take (count - 1) ∧
      (0 < count → buffer' (min t.length (count - 1)) = 0) ∧
      ∀ i, min t.length (count - 1) < i ∨ count ≤ i → buffer' i = buffer i := by
  refine ⟨intoBuffer count 0 t buffer, by rw [snprintf, put]; rfl, ?_, fun some' => ?_, fun i after => ?_⟩
  · apply List.ext_getElem
    · rw [List.length_map, List.length_range, List.length_take, Nat.min_comm]
    · intro i below _
      rw [List.length_map, List.length_range] at below
      have inside : i < t.length := by omega
      rw [List.getElem_map, List.getElem_range, List.getElem_take, intoBuffer_eq fits, Nat.zero_add,
        if_neg (by omega), if_pos ⟨Nat.zero_le i, inside, by omega⟩, Nat.sub_zero]
      exact (List.getElem_eq_getD 0).symm
  · rw [intoBuffer_eq fits, Nat.zero_add, if_pos ⟨some', rfl⟩]
  · rw [intoBuffer_eq fits, Nat.zero_add, if_neg (by omega), if_neg (by omega)]

theorem snprintf_cuts : ∃ buffer, snprintf (fun _ => 7) 3 [72, 37, 100] [.word 12] = .ok (buffer, 3) ∧
    (List.range 2).map buffer = [72, 49] ∧ buffer 2 = 0 ∧ buffer 3 = 7 := by
  obtain ⟨buffer, done, text, terminator, rest⟩ :=
    snprintf_buffer (fun _ => 7) (by decide : 3 < 2 ^ 64)
      (by decide +kernel : vsnprintf [72, 37, 100] [.word 12] = .ok [72, 49, 50])
  exact ⟨buffer, done, text, terminator (by decide), rest 3 (.inl (by decide))⟩

end Buffers

end MultiZone.Printf
