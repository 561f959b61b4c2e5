import Mathlib.Data.UInt

/-! Formatted output as the C standard defines it, for formats with integer arguments.
Where the standard does not define the result, for want of an argument or of a
conversion, there is none. -/
namespace Formatting

abbrev Text := List UInt8

def percent : UInt8 := 37

def decimalChar : UInt8 := 100

def digits (n : Nat) : Text := (Nat.toDigits 10 n).map fun d => UInt8.ofNat d.toNat

def decimal : Int → Text
  | .ofNat n => digits n
  | .negSucc n => 45 :: digits (n + 1)

/-- What is written for a format; `%%` stands for a percent sign. -/
def format : Text → List Int → Option Text
  | [], _ => some []
  | [c], _ => if c = percent then none else some [c]
  | c :: d :: rest, args =>
    if c = percent then
      if d = percent then (format rest args).map (percent :: ·)
      else if d = decimalChar then
        match args with
        | [] => none
        | n :: args => (format rest args).map (decimal n ++ ·)
      else none
    else (format (d :: rest) args).map (c :: ·)

/-- As much as fits into a buffer of `size` bytes, its terminator included. -/
def snprintf (size : Nat) (text : Text) (args : List Int) : Option Text :=
  (format text args).map fun out => out.take (size - 1)

theorem format_literal {text : Text} (plain : percent ∉ text) (args : List Int) :
    format text args = some text := by
  fun_induction format text args with
  | case1 => rfl
  | case2 => simp at plain
  | case3 => rfl
  | case4 => simp at plain
  | case5 => simp at plain
  | case6 => simp at plain
  | case7 => simp at plain
  | case8 c d rest args other ih =>
    have later : percent ∉ d :: rest := by
      intro sign
      exact plain (List.mem_cons_of_mem _ sign)
    rw [ih later]
    rfl

/-- Without arguments a format is not written longer than it is, and shorter where
it has a percent sign. -/
theorem format_shorter {text out : Text} {args : List Int} (noArgs : args = [])
    (ok : format text args = some out) :
    out.length ≤ text.length ∧ (percent ∈ text → out.length < text.length) := by
  fun_induction format text args generalizing out with
  | case1 =>
    cases ok
    simp
  | case2 => cases ok
  | case3 c args other =>
    cases ok
    simp [Ne.symm other]
  | case4 rest args ih =>
    obtain ⟨more, hm, rfl⟩ := Option.map_eq_some_iff.mp ok
    have bound := (ih noArgs hm).1
    simp only [List.length_cons]
    omega
  | case5 => cases ok
  | case6 => cases noArgs
  | case7 => cases ok
  | case8 c d rest args other ih =>
    obtain ⟨more, hm, rfl⟩ := Option.map_eq_some_iff.mp ok
    obtain ⟨bound, shorter⟩ := ih noArgs hm
    refine ⟨by simp only [List.length_cons] at bound ⊢; omega, fun sign => ?_⟩
    have later : percent ∈ d :: rest := (List.mem_cons.mp sign).resolve_left (Ne.symm other)
    have less := shorter later
    simp only [List.length_cons] at less ⊢
    omega

theorem snprintf_literal_iff {size : Nat} {text : Text} (fits : text.length < size) :
    snprintf size text [] = some text ↔ percent ∉ text := by
  unfold snprintf
  constructor
  · intro literal sign
    obtain ⟨out, ok, cut⟩ := Option.map_eq_some_iff.mp literal
    have less := (format_shorter rfl ok).2 sign
    rw [← cut, List.length_take] at less
    omega
  · intro plain
    rw [format_literal plain, Option.map_some, List.take_of_length_le (by omega)]

end Formatting
