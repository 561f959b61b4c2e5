import MultiZone.Boot.Start

/-! What a result of FR_OK says about an image. f_load tests the size of a file
but has no result of its own for one that fails the test. -/
namespace MultiZone.Boot
open Memory

def Complete (fw : Image) (file : File) (s : Loader) : Prop :=
  0 < fSize file ∧ fSize file ≤ fw.loadSize ∧
    ∀ (i : Nat) b, file.contents[i]? = some b → s.mem (fw.loadAddr + i) = b

/-- Success is reported for a complete image only. -/
def Truthful (fw : Image) (file : File) (s : Loader) : Prop :=
  (fLoad fw file s).1 = .ok → Complete fw file (fLoad fw file s).2

section Result

variable {fw : Image} {file : File} {s : Loader}

theorem fLoad_unfit (unfit : ¬ Fits fw file) : fLoad fw file s = (file.opened, s) := by
  rcases fLoad_cases fw file s with ⟨fits, -⟩ | ⟨-, eq⟩
  · exact absurd fits unfit
  · exact eq

theorem fLoad_fits (fits : Fits fw file) :
    fLoad fw file s = (file.read, s.store fw file.delivered) := by
  rcases fLoad_cases fw file s with ⟨-, eq⟩ | ⟨unfit, -⟩
  · exact eq
  · exact absurd fits unfit

theorem store_complete (fits : Fits fw file) (read : file.read = .ok) :
    Complete fw file (s.store fw file.delivered) := by
  obtain ⟨-, nonempty, small, -⟩ := fits
  have whole : file.delivered = file.contents := delivered_all.mpr (.inl read)
  rw [whole]
  refine ⟨nonempty, small, fun i b hb => ?_⟩
  exact store_inside hb

end Result

/-- f_load is truthful exactly about the files whose size passes its test. -/
theorem truthful_iff {fw : Image} (file : File) (s : Loader) (other : fw ≠ .zone1) :
    Truthful fw file s ↔ (file.opened = .ok → 0 < fSize file ∧ fSize file ≤ fw.loadSize) := by
  constructor
  · intro truthful opened
    apply Decidable.byContradiction
    intro wrong
    have unfit : ¬ Fits fw file := fun fits => wrong ⟨fits.2.1, fits.2.2.1⟩
    have success : (fLoad fw file s).1 = .ok := by
      rw [fLoad_unfit unfit]
      exact opened
    have complete := truthful success
    exact wrong ⟨complete.1, complete.2.1⟩
  · intro tested success
    have accepted := (fLoad_accepted fw file s).mp success
    obtain ⟨nonempty, small⟩ := tested accepted.1
    have fits : Fits fw file := ⟨accepted.1, nonempty, small, other⟩
    rw [fLoad_fits fits]
    exact store_complete fits (accepted.2 fits)

def zeros (size : Nat) : File := ⟨.ok, List.replicate size 0, .ok, 0⟩

theorem fSize_zeros (size : Nat) : fSize (zeros size) = size := List.length_replicate

theorem zeros_truthful : Image.hart1 ≠ .zone1 ∧ Truthful .hart1 (zeros 512) ⟨fun _ => 0, []⟩ :=
  have other : Image.hart1 ≠ .zone1 := by decide
  ⟨other, (truthful_iff (zeros 512) ⟨fun _ => 0, []⟩ other).mpr fun _ => by
    rw [fSize_zeros]
    decide⟩

theorem emptyFile_untruthful : ¬ Truthful .hart1 (zeros 0) ⟨fun _ => 0, []⟩ := by
  intro truthful
  have complete := truthful rfl
  exact absurd complete.1 (by decide)

/-- sizeof(fsize) - strlen(fsize), the number of rounds of the padding loop. -/
def paddingCount (file : File) : Nat :=
  (9 + (2 ^ 64 - (utoa (fSize file % 2 ^ 32)).length)) % 2 ^ 64

/-- The report stays within its buffers, and the padding loop ends in time. -/
def Inside (fw : Image) (file : File) : Prop :=
  (∃ strbuff, report fw file = .ok strbuff) ∧ paddingCount file ≤ 8

theorem inside_iff_reported (fw : Image) (file : File) : Inside fw file ↔ Reported file := by
  unfold Reported
  constructor
  · rintro ⟨⟨strbuff, ok⟩, -⟩
    apply Decidable.byContradiction
    intro large
    rw [report_overrun large] at ok
    cases ok
  · intro small
    have digits := (utoa_length (by decide) _).mpr small
    have some_digit : 0 < (utoa (fSize file % 2 ^ 32)).length := Nat.length_toDigits_pos
    refine ⟨⟨_, report_ok small⟩, ?_⟩
    unfold paddingCount
    omega

theorem loadSize_reported {fw : Image} {file : File} (small : fSize file ≤ fw.loadSize) :
    Reported file := by
  have largest : fw.loadSize ≤ 64 * 1024 * 1024 := by cases fw <;> decide
  unfold Reported
  omega

/-- The report of what f_load lets through stays inside its buffers, but for files
that are larger than the region and take more than eight digits. -/
theorem reportsInside_iff (fw : Image) (file : File) (s : Loader) :
    ((fLoad fw file s).1 = .ok → Inside fw file) ↔
      (file.opened = .ok → fSize file ≤ fw.loadSize ∨ fSize file % 2 ^ 32 < 10 ^ 8) := by
  rw [inside_iff_reported]
  constructor
  · intro reported opened
    rcases Nat.lt_or_ge fw.loadSize (fSize file) with large | small
    · right
      apply reported
      rw [fLoad_unfit fun fits => absurd fits.2.2.1 (Nat.not_le.mpr large)]
      exact opened
    · exact .inl small
  · intro sized success
    have accepted := (fLoad_accepted fw file s).mp success
    rcases sized accepted.1 with small | digits
    · exact loadSize_reported small
    · exact digits

theorem nineDigits_overrun : (fLoad .hart1 (zeros (10 ^ 8)) ⟨fun _ => 0, []⟩).1 = .ok ∧
    ¬ Inside .hart1 (zeros (10 ^ 8)) := by
  have unfit : ¬ Fits .hart1 (zeros (10 ^ 8)) := by
    unfold Fits
    rw [fSize_zeros]
    decide
  rw [fLoad_unfit unfit, inside_iff_reported, Reported, fSize_zeros]
  exact ⟨rfl, by decide⟩

end MultiZone.Boot
