import MultiZone.Boot.Model

/-! The line that reports an image fits its buffers exactly if the size, as it is
passed to utoa, has no more than eight digits. -/
namespace MultiZone.Boot

theorem strcat_ok (size : Nat) {s t : List Char} (fits : s.length + t.length < size) :
    strcat size s t = .ok (s ++ t) :=
  if_pos fits

theorem strcat_overrun (size : Nat) {s t : List Char} (long : size ≤ s.length + t.length) :
    strcat size s t = .error .overrun :=
  if_neg (Nat.not_lt.mpr long)

theorem padding_ok {n : Nat} {s : List Char} (fits : s.length + n < 32) :
    padding n s = .ok (s ++ List.replicate n ' ') := by
  induction n generalizing s with
  | zero => simp only [padding, List.replicate_zero, List.append_nil]
  | succ n ih =>
    have one : s.length + [' '].length < 32 := by
      simp only [List.length_singleton]
      omega
    rw [padding, strcat_ok 32 one]
    change padding n (s ++ [' ']) = _
    rw [ih (by simp only [List.length_append, List.length_singleton]; omega), List.append_assoc]
    rfl

theorem utoa_length {k : Nat} (positive : 0 < k) (value : Nat) :
    (utoa value).length ≤ k ↔ value < 10 ^ k :=
  Nat.length_toDigits_le_iff (by decide) positive

theorem fileName_length (fw : Image) : fw.fileName.length = 9 := by
  cases fw <;> rfl

theorem prefix_ok : strcat 32 [] ['e', 'm', 'm', 'c', ':', '/', '/'] =
    .ok ['e', 'm', 'm', 'c', ':', '/', '/'] :=
  strcat_ok 32 (by decide)

theorem named_ok (fw : Image) : strcat 32 ['e', 'm', 'm', 'c', ':', '/', '/'] fw.fileName =
    .ok (['e', 'm', 'm', 'c', ':', '/', '/'] ++ fw.fileName) :=
  strcat_ok 32 (by simp [fileName_length])

/-- The line of an image: its name, and its size adjusted to the right. -/
def line (fw : Image) (size : List Char) : List Char :=
  ['e', 'm', 'm', 'c', ':', '/', '/'] ++ fw.fileName ++ List.replicate (9 - size.length) ' ' ++
    size ++ ['\n', '\r']

theorem report_ok {fw : Image} {file : File} (small : fSize file % 2 ^ 32 < 10 ^ 8) :
    report fw file = .ok (line fw (utoa (fSize file % 2 ^ 32))) := by
  unfold report line
  have digits := (utoa_length (by decide) _).mpr small
  generalize utoa (fSize file % 2 ^ 32) = size at digits ⊢
  have name := fileName_length fw
  have count : (9 + (2 ^ 64 - size.length)) % 2 ^ 64 = 9 - size.length := by omega
  have sized := strcat_ok 9 (s := []) (t := size) (by simpa using Nat.lt_succ_of_le digits)
  rw [List.nil_append] at sized
  simp only [bind, Except.bind, prefix_ok, named_ok fw, sized, count]
  rw [padding_ok (by simp [name]; omega)]
  dsimp only
  rw [strcat_ok 32 (by simp [name]; omega)]
  dsimp only
  rw [strcat_ok 32 (by simp [name]; omega)]

theorem report_overrun {fw : Image} {file : File} (large : ¬ fSize file % 2 ^ 32 < 10 ^ 8) :
    report fw file = .error .overrun := by
  unfold report
  have digits := mt (utoa_length (by decide) (fSize file % 2 ^ 32)).mp large
  have sized := strcat_overrun 9 (s := []) (t := utoa (fSize file % 2 ^ 32))
    (by simpa using Nat.succ_le_of_lt (Nat.lt_of_not_le digits))
  simp only [bind, Except.bind, prefix_ok, named_ok fw, sized]

end MultiZone.Boot
