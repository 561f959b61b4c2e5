import MultiZone.Boot.Loading
import MultiZone.Boot.Report
import Mathlib.Data.List.TakeDrop

/-! Which images the released harts start. The start code decides on the first
eight bytes of the region alone. -/
namespace MultiZone.Boot
open Memory

def Accepted (fw : Image) (file : File) : Prop :=
  file.opened = .ok ∧ (Fits fw file → file.read = .ok)

/-- The size takes no more than eight digits. -/
def Reported (file : File) : Prop := fSize file % 2 ^ 32 < 10 ^ 8

/-- The boot loop goes on after the image. -/
def Passes (card : Card) (fw : Image) : Prop :=
  (fw.isZone = true → Accepted fw (card.volume fw)) ∧
    (Accepted fw (card.volume fw) → Reported (card.volume fw))

def Completes (bootMode : Nat) (card : Card) : Prop :=
  card.mounted = true ∧ ∀ fw ∈ fwImage bootMode, Passes card fw

/-- f_read fails on the file of a hart between a start that does not look empty
and its end. -/
def Torn (h : Hart) (file : File) : Prop :=
  Fits h.image file ∧ file.read = .error ∧ file.stored < fSize file ∧
    ∃ i b, i < 8 ∧ i < file.stored ∧ file.contents[i]? = some b ∧ b ≠ 0

def Loaded (volume : Volume) (h : Hart) (s : Loader) : Prop :=
  ⟨h.image, h.image.loadAddr, (volume h.image).contents⟩ ∈ s.log

/-- If the harts are released, this one jumps to its region only if its file was
loaded there completely. -/
def StartsComplete (bootMode : Nat) (card : Card) (mem : Nat → Byte) (h : Hart) : Prop :=
  let r := e51 bootMode card mem
  r.1 = .released → u54 h.mhartid r.2.mem = some h.image.prog.base → Loaded card.volume h r.2

section Loop

theorem fLoad_accepted (fw : Image) (file : File) (s : Loader) :
    (fLoad fw file s).1 = .ok ↔ Accepted fw file := by
  unfold Accepted
  rcases fLoad_cases fw file s with ⟨fits, eq⟩ | ⟨unfit, eq⟩
  · rw [eq]
    exact ⟨fun read => ⟨fits.1, fun _ => read⟩, fun accepted => accepted.2 fits⟩
  · rw [eq]
    exact ⟨fun opened => ⟨opened, fun fits => absurd fits unfit⟩, And.left⟩

theorem bootLoop_cases (card : Card) (fws : List Image) (s : Loader) :
    (∀ fw ∈ fws, Passes card fw) ∧
      bootLoop card fws s = (.released, fws.foldl (load card.volume) s) ∨
    ∃ before fw after, fws = before ++ fw :: after ∧ ¬ Passes card fw ∧
      (bootLoop card fws s).2 = (before ++ [fw]).foldl (load card.volume) s ∧
      ((bootLoop card fws s).1 = .released → fw.isZone = true) := by
  induction fws generalizing s with
  | nil => exact .inl ⟨nofun, rfl⟩
  | cons fw rest ih =>
    have goesOn : Passes card fw →
        bootLoop card (fw :: rest) s = bootLoop card rest (load card.volume s fw) →
        (∀ fw' ∈ fw :: rest, Passes card fw') ∧ bootLoop card (fw :: rest) s =
          (.released, (fw :: rest).foldl (load card.volume) s) ∨
        ∃ before fw' after, fw :: rest = before ++ fw' :: after ∧ ¬ Passes card fw' ∧
          (bootLoop card (fw :: rest) s).2 = (before ++ [fw']).foldl (load card.volume) s ∧
          ((bootLoop card (fw :: rest) s).1 = .released → fw'.isZone = true) := by
      intro passes eq
      rw [eq]
      rcases ih (load card.volume s fw) with ⟨all, done⟩ | ⟨before, fw', after, split, stops, state, zone⟩
      · exact .inl ⟨List.forall_mem_cons.mpr ⟨passes, all⟩, done⟩
      · exact .inr ⟨fw :: before, fw', after, congrArg (fw :: ·) split, stops, state, zone⟩
    have accepted := fLoad_accepted fw (card.volume fw) s
    rcases hl : fLoad fw (card.volume fw) s with ⟨result, t⟩
    have state : load card.volume s fw = t := congrArg Prod.snd hl
    rw [hl] at accepted
    rw [bootLoop, hl]
    rw [bootLoop, hl, state] at goesOn
    cases result with
    | ok =>
      have accepted := accepted.mp rfl
      by_cases small : Reported (card.volume fw)
      · rw [report_ok small] at goesOn ⊢
        exact goesOn ⟨fun _ => accepted, fun _ => small⟩ rfl
      · right
        rw [report_overrun small]
        exact ⟨[], fw, rest, rfl, fun passes => small (passes.2 accepted), state.symm, nofun⟩
    | error =>
      have rejected : ¬ Accepted fw (card.volume fw) := fun ok => by cases accepted.mpr ok
      by_cases zone : fw.isZone = true
      · right
        refine ⟨[], fw, rest, rfl, fun passes => rejected (passes.1 zone), ?_, fun _ => zone⟩
        dsimp only
        rw [if_pos zone]
        split <;> exact state.symm
      · dsimp only at goesOn ⊢
        rw [if_neg zone] at goesOn ⊢
        exact goesOn ⟨fun isZone => absurd isZone zone, fun ok => absurd ok rejected⟩ rfl

theorem zones_first (bootMode : Nat) :
    (fwImage bootMode).Pairwise fun fw fw' => fw'.isZone = true → fw.isZone = true := by
  unfold fwImage
  split <;> decide

theorem hart_isZone (h : Hart) : h.image.isZone = false := by
  cases h <;> decide

theorem hart_mem (bootMode : Nat) (h : Hart) : h.image ∈ fwImage bootMode := by
  unfold fwImage
  apply List.mem_append_right
  cases h <;> decide

theorem fwImage_nodup (bootMode : Nat) : (fwImage bootMode).Nodup := by
  unfold fwImage
  split <;> decide

/-- The images up to one of a zone are all of zones. -/
theorem zones_before {bootMode : Nat} {before after : List Image} {fw : Image}
    (split : fwImage bootMode = before ++ fw :: after) (zone : fw.isZone = true) (h : Hart) :
    h.image ∉ before ++ [fw] := by
  have pairs := zones_first bootMode
  rw [split, List.pairwise_append] at pairs
  intro mem
  have isZone : h.image.isZone = true := by
    rcases List.mem_append.mp mem with old | last
    · exact pairs.2.2 h.image old fw List.mem_cons_self zone
    · exact List.mem_singleton.mp last ▸ zone
  rw [hart_isZone] at isZone
  cases isZone

end Loop

section Regions

variable {volume : Volume} {fw : Image} {s : Loader} {a : Nat}

theorem load_mem : (load volume s fw).mem a = if Fits fw (volume fw) then
    Memory.store s.mem fw.prog.base (volume fw).delivered a else s.mem a := by
  unfold load
  rcases fLoad_cases fw (volume fw) s with ⟨fits, eq⟩ | ⟨unfit, eq⟩
  · rw [eq, if_pos fits]
    rfl
  · rw [eq, if_neg unfit]

theorem load_congr {t : Loader} (same : s.mem a = t.mem a) :
    (load volume s fw).mem a = (load volume t fw).mem a := by
  rw [load_mem, load_mem]
  simp only [Memory.store, same]

theorem load_other {fw' : Image} (other : fw' ≠ fw) (holds : fw.prog.Holds a) :
    (load volume s fw').mem a = s.mem a := by
  rw [load_mem]
  split
  · rename_i fits
    apply store_outside
    intro i hi same
    apply (prog_apart other).outside ?_ holds
    obtain ⟨b, hb⟩ := Option.ne_none_iff_exists'.mp hi
    have inside := (List.getElem?_eq_some_iff.mp (delivered_contents hb)).1
    have small : (volume fw').contents.length ≤ fw'.prog.length := fits.2.2.1
    unfold Region.Holds
    omega
  · rfl

theorem loads_other {fws : List Image} (none : fw ∉ fws) (holds : fw.prog.Holds a) :
    (fws.foldl (load volume) s).mem a = s.mem a := by
  induction fws generalizing s with
  | nil => rfl
  | cons fw' rest ih =>
    rw [List.mem_cons, not_or] at none
    obtain ⟨other, none⟩ := none
    exact (ih none).trans (load_other (Ne.symm other) holds)

theorem loads_own {fws : List Image} (nodup : fws.Nodup) (mem : fw ∈ fws)
    (holds : fw.prog.Holds a) :
    (fws.foldl (load volume) s).mem a = (load volume s fw).mem a := by
  induction fws generalizing s with
  | nil => cases mem
  | cons fw' rest ih =>
    obtain ⟨fresh, nodup⟩ := List.nodup_cons.mp nodup
    by_cases own : fw' = fw
    · subst own
      exact loads_other fresh holds
    · have later := (List.mem_cons.mp mem).resolve_left (Ne.symm own)
      rw [List.foldl_cons, ih nodup later]
      exact load_congr (load_other own holds)

theorem loads_log {fws : List Image} {st : Store Image Byte} :
    st ∈ (fws.foldl (load volume) s).log ↔ st ∈ s.log ∨ ∃ fw ∈ fws, Fits fw (volume fw) ∧
      st = ⟨fw, fw.loadAddr, (volume fw).delivered⟩ := by
  induction fws generalizing s with
  | nil => simp
  | cons fw rest ih =>
    rw [List.foldl_cons, ih]
    unfold load
    rcases fLoad_cases fw (volume fw) s with ⟨fits, eq⟩ | ⟨unfit, eq⟩
    · rw [eq]
      simp [Loader.store, fits, or_assoc]
    · rw [eq]
      simp [unfit]

end Regions

section Jump

theorem ld_eq_zero (mem : Nat → Byte) (a : Nat) : ld mem a = 0 ↔ ∀ i < 8, mem (a + i) = 0 := by
  have bytes : ∀ l : List Nat,
      l.foldr (fun i value => (mem (a + i)).toNat + 256 * value) 0 = 0 ↔
        ∀ i ∈ l, mem (a + i) = 0 := by
    intro l
    induction l with
    | nil => simp
    | cons i l ih =>
      rw [List.foldr_cons, List.forall_mem_cons, ← ih, ← UInt8.toNat_inj]
      simp only [UInt8.toNat_zero]
      omega
  rw [ld, bytes]
  simp only [List.mem_range]

theorem u54_jumps {h : Hart} {mem : Nat → Byte} :
    u54 h.mhartid mem = some h.image.prog.base ↔ ∃ i < 8, mem (h.image.prog.base + i) ≠ 0 := by
  have target : Image.hart1.prog.base + Image.hart1.prog.length * (h.mhartid - 1) =
      h.image.prog.base := by
    cases h <;> rfl
  unfold u54
  rw [target]
  have zero := ld_eq_zero mem h.image.prog.base
  by_cases empty : ld mem h.image.prog.base = 0
  · rw [if_pos empty]
    refine iff_of_false nofun ?_
    rintro ⟨i, hi, ne⟩
    exact ne (zero.mp empty i hi)
  · rw [if_neg empty]
    refine iff_of_true rfl ?_
    simpa using mt zero.mpr empty

theorem first_inside (h : Hart) {i : Nat} (hi : i < 8) :
    h.image.prog.Holds (h.image.prog.base + i) := by
  have wide : 8 ≤ h.image.prog.length := by cases h <;> decide
  unfold Region.Holds
  omega

end Jump

section Hart

variable {bootMode : Nat} {card : Card} {mem : Nat → Byte} {h : Hart}

theorem first_bytes (zero : ∀ a, h.image.prog.Holds a → mem a = 0) {i : Nat} (hi : i < 8) :
    ((fwImage bootMode).foldl (load card.volume) ⟨mem, []⟩).mem (h.image.prog.base + i) ≠ 0 ↔
      Fits h.image (card.volume h.image) ∧
        ∃ b, (card.volume h.image).delivered[i]? = some b ∧ b ≠ 0 := by
  have inside := first_inside h hi
  rw [loads_own (fwImage_nodup bootMode) (hart_mem bootMode h) inside, load_mem]
  by_cases fits : Fits h.image (card.volume h.image)
  · rw [if_pos fits]
    cases hb : (card.volume h.image).delivered[i]? with
    | none =>
      have spare : Memory.store mem h.image.prog.base (card.volume h.image).delivered
          (h.image.prog.base + i) = mem (h.image.prog.base + i) := by
        apply store_outside
        intro j hj same
        have : i = j := by omega
        exact hj (this ▸ hb)
      rw [spare, zero _ inside]
      simp
    | some b =>
      rw [store_inside hb]
      simp [fits]
  · rw [if_neg fits]
    simp [fits, zero _ inside]

theorem loaded_iff : Loaded card.volume h
    ((fwImage bootMode).foldl (load card.volume) ⟨mem, []⟩) ↔
      Fits h.image (card.volume h.image) ∧
        (card.volume h.image).delivered = (card.volume h.image).contents := by
  unfold Loaded
  rw [loads_log]
  constructor
  · rintro (old | ⟨fw, -, fits, same⟩)
    · cases old
    · obtain ⟨rfl, -, bytes⟩ := Store.mk.inj same
      exact ⟨fits, bytes.symm⟩
  · rintro ⟨fits, bytes⟩
    exact .inr ⟨h.image, hart_mem bootMode h, fits, by rw [bytes]⟩

theorem delivered_all {file : File} :
    file.delivered = file.contents ↔ file.read = .ok ∨ fSize file ≤ file.stored := by
  rw [delivered_eq, List.take_eq_self_iff]
  cases file.read with
  | ok => simp [fSize]
  | error => simp [fSize]

theorem torn_iff {file : File} : Torn h file ↔ Fits h.image file ∧
    file.delivered ≠ file.contents ∧ ∃ i < 8, ∃ b, file.delivered[i]? = some b ∧ b ≠ 0 := by
  unfold Torn
  rw [ne_eq, delivered_all, not_or, Nat.not_le, delivered_eq]
  cases hr : file.read with
  | ok => simp
  | error =>
    simp only [reduceCtorEq, not_false_eq_true, if_false, List.getElem?_take, true_and]
    apply and_congr_right
    intro _
    apply and_congr_right
    intro _
    constructor
    · rintro ⟨i, b, hi, hs, hb, ne⟩
      exact ⟨i, hi, b, by rw [if_pos hs, hb], ne⟩
    · rintro ⟨i, hi, b, hb, ne⟩
      split at hb
      · rename_i hs
        exact ⟨i, b, hi, hs, hb, ne⟩
      · cases hb

/-- A hart starts only a complete image, exactly if its file is not torn in a
boot that loads all the images. -/
theorem startsComplete_iff_notTorn (bootMode : Nat) (card : Card) (mem : Nat → Byte) (h : Hart)
    (zero : ∀ a, h.image.prog.Holds a → mem a = 0) :
    StartsComplete bootMode card mem h ↔
      ¬ (Completes bootMode card ∧ Torn h (card.volume h.image)) := by
  unfold StartsComplete Completes e51
  by_cases mounted : card.mounted = true
  case neg => simp [mounted]
  rw [if_pos mounted]
  dsimp only
  rw [u54_jumps]
  rcases bootLoop_cases card (fwImage bootMode) ⟨mem, []⟩ with
    ⟨all, done⟩ | ⟨before, fw, after, split, stops, state, zone⟩
  · rw [done, loaded_iff, torn_iff]
    have jump : (∃ i < 8, ((fwImage bootMode).foldl (load card.volume) ⟨mem, []⟩).mem
        (h.image.prog.base + i) ≠ 0) ↔ Fits h.image (card.volume h.image) ∧
          ∃ i < 8, ∃ b, (card.volume h.image).delivered[i]? = some b ∧ b ≠ 0 := by
      constructor
      · rintro ⟨i, hi, ne⟩
        obtain ⟨fits, byte⟩ := (first_bytes zero hi).mp ne
        exact ⟨fits, i, hi, byte⟩
      · rintro ⟨fits, i, hi, byte⟩
        exact ⟨i, hi, (first_bytes zero hi).mpr ⟨fits, byte⟩⟩
    dsimp only
    rw [jump]
    constructor
    · intro complete ⟨_, fits, cut, first⟩
      exact cut (complete rfl ⟨fits, first⟩).2
    · intro whole _ ⟨fits, first⟩
      refine ⟨fits, Decidable.byContradiction fun cut => ?_⟩
      exact whole ⟨⟨mounted, all⟩, fits, cut, first⟩
  · have incomplete : ¬ ∀ fw ∈ fwImage bootMode, Passes card fw := fun all =>
      stops (all fw (split ▸ List.mem_append_right _ List.mem_cons_self))
    refine iff_of_true (fun released jump => ?_) fun torn => incomplete torn.1.2
    -- the loop has been left at a zone, before it has come to the harts
    obtain ⟨i, hi, ne⟩ := jump
    have inside := first_inside h hi
    rw [state, loads_other (zones_before split (zone released) h) inside] at ne
    exact absurd (zero _ inside) ne

/-- A card with one image, of two sectors, for hart 1. -/
def oneImage (read : FResult) (stored : Nat) : Card where
  mounted := true
  freeClust := 0
  volume := fun fw =>
    if fw = .hart1 then ⟨.ok, List.replicate 1024 0x13, read, stored⟩ else ⟨.error, [], .ok, 0⟩

set_option maxRecDepth 8192 in
theorem wholeImage_starts :
    u54 1 (e51 0 (oneImage .ok 0) fun _ => 0).2.mem = some 0x80000000 ∧
      StartsComplete 0 (oneImage .ok 0) (fun _ => 0) .hart1 :=
  ⟨rfl, (startsComplete_iff_notTorn 0 _ _ .hart1 fun _ _ => rfl).mpr fun torn => by
    cases torn.2.2.1⟩

set_option maxRecDepth 8192 in
/-- The second of the two sectors cannot be read. -/
theorem tornImage_starts : ¬ StartsComplete 0 (oneImage .error 512) (fun _ => 0) .hart1 := by
  intro complete
  have loaded := complete rfl rfl
  obtain ⟨-, -, bytes⟩ := Store.mk.inj (List.mem_singleton.mp loaded)
  have sectors := congrArg List.length bytes
  simp only [fRead, oneImage, Hart.image, if_true, List.length_take, List.length_replicate,
    reduceCtorEq, if_false] at sectors
  omega

end Hart

end MultiZone.Boot
