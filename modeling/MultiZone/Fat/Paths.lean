import MultiZone.Fat.Forms

/-! What create_name makes of the first segment of a path. -/
namespace MultiZone.Fat
open Memory

/-- The path from its next segment on. -/
def following (path : List Byte) : List Byte := (behind path).dropWhile fun c => isSeparator c.toNat

def segmentName (path : List Byte) : List Byte := trim (segment path)

def Valid (path : List Byte) : Prop :=
  (∀ b ∈ segment path, b.toNat ∉ illegal) ∧ (segment path).length ≤ 255 ∧ segmentName path ≠ []

instance (path : List Byte) : Decidable (Valid path) := inferInstanceAs (Decidable (_ ∧ _ ∧ _))

section Creating

variable {path : List Byte} {stale : Nat → Nat}

theorem segment_some (path : List Byte) : ∀ c ∈ segment path, c.toNat ≠ 0 := by
  intro c mem zero
  have inside := List.mem_takeWhile_imp mem
  rw [within, isTerminator, zero] at inside
  cases inside

theorem segmentName_get {k : Nat} {c : Byte} (get : (segmentName path)[k]? = some c) :
    (segment path)[k]? = some c := by
  obtain ⟨rest, whole⟩ := List.rdropWhile_prefix blank (l := segment path)
  have short := (List.getElem?_eq_some_iff.mp get).1
  have front : (segmentName path ++ rest)[k]? = some c := by
    rw [List.getElem?_append_left short]
    exact get
  exact whole ▸ front

theorem segment_spells : Spells (store stale 0 ((segment path).map uni)) 0 (segment path) := by
  intro k c get
  apply store_inside
  rw [List.getElem?_map, get]
  rfl

theorem name_spells (path : List Byte) (stale : Nat → Nat) :
    Spells (store (store stale 0 ((segment path).map uni)) (segmentName path).length [0])
      0 (segmentName path) := by
  intro k c get
  have short := (List.getElem?_eq_some_iff.mp get).1
  rw [store_apart (.inl (by omega))]
  exact segment_spells k c (segmentName_get get)

theorem name_ended : store (store stale 0 ((segment path).map uni)) (segmentName path).length [0]
    (segmentName path).length = 0 := by
  rw [← Nat.add_zero (segmentName path).length]
  exact store_inside rfl

theorem name_holds (short : (segment path).length ≤ 255) :
    Holds (store (store stale 0 ((segment path).map uni)) (segmentName path).length [0])
      ((segmentName path).map uni) := by
  have prefix' := (List.rdropWhile_prefix blank (l := segment path)).length_le
  have less : (segmentName path).length ≤ (segment path).length := prefix'
  refine ⟨?_, ?_, ?_⟩
  · intro k c get
    rw [List.getElem?_map] at get
    obtain ⟨b, get', rfl⟩ := Option.map_eq_some_iff.mp get
    have here := name_spells path stale k b get'
    rw [Nat.zero_add] at here
    refine ⟨here, fun zero => ?_⟩
    have some' := segment_some path b (List.mem_of_getElem? (segmentName_get get'))
    exact some' ((oem_back b.toNat b.toNat_lt).2.2.2.mp zero)
  · rw [List.length_map]
    exact name_ended
  · rw [List.length_map]
    omega

/-- The path that create_name leaves, and whether it says that the segment is the last one. -/
theorem following_cases (path : List Byte) :
    (uni ((behind path).headD 0) < 0x20 ∧ isTerminator (char (following path)) = true) ∨
      ¬ uni ((behind path).headD 0) < 0x20 ∧
        (behind path).tail.dropWhile (fun c => isSeparator c.toNat) = following path := by
  unfold following
  cases rest : behind path with
  | nil => exact .inl ⟨by decide, rfl⟩
  | cons b p =>
    obtain ⟨low, -⟩ := uni_ascii b.toNat b.toNat_lt
    have outside : within b = false := by
      have head := List.head?_dropWhile_not within path
      rw [show path.dropWhile within = b :: p from rest] at head
      exact head
    cases separator : isSeparator b.toNat with
    | true =>
      refine .inr ⟨fun below => ?_, ?_⟩
      · have apart : ∀ b < 0x20, isSeparator b = false := by decide
        rw [apart _ (low.mp below)] at separator
        cases separator
      · rw [List.dropWhile_cons, if_pos separator]
        rfl
    | false =>
      rw [within, separator, Bool.or_false, Bool.not_eq_false'] at outside
      rw [List.dropWhile_cons, if_neg (Bool.eq_false_iff.mp separator)]
      exact .inl ⟨low.mpr (of_decide_eq_true outside), outside⟩

theorem shortName_keeps {lfn : Nat → Nat} {di cf m : Nat} (low : ∀ f < 2 ^ 2, f &&& m = 0)
    (body : 0x08 &&& m = 0) (ext : 0x10 &&& m = 0) : (shortName lfn di cf).2 &&& m = cf &&& m := by
  obtain ⟨f, small, kept⟩ := sfnLoop_flags lfn (lastDot lfn di) (di + 2) (sfnStart lfn di cf)
  unfold shortName
  rw [sfnFinish_cf (low 2 (by decide)) body ext, kept, or_clear (low f small)]
  unfold sfnStart
  dsimp only
  split
  · exact or_clear (low 3 (by decide))
  · rfl

theorem shortName_names {lfn : Nat → Nat} {name : List Byte} {cf : Nat} (spells : Spells lfn 0 name)
    (ended : lfn name.length = 0) (some' : ∀ c ∈ name, c.toNat ≠ 0) (positive : name ≠ [])
    (trimmed : trim name = name) (whole : cf &&& 0x01 = 0) :
    ((shortName lfn name.length cf).2 &&& 0x01 = 0 ↔ ∃ stem ext, Eight name stem ext) ∧
      ∀ stem ext, Eight name stem ext → (shortName lfn name.length cf).1 = directoryForm stem ext := by
  have shortened := sfnLoop_name cf spells ended some' positive trimmed
  unfold shortName
  rw [sfnFinish_cf rfl rfl rfl, sfnFinish_fn]
  refine ⟨⟨fun zero => ?_, ?_⟩, ?_⟩
  · by_contra none'
    exact shortened.lost none' zero
  · rintro ⟨stem, ext, eight⟩
    exact (shortened.kept stem ext eight).1.trans whole
  · intro stem ext eight
    rw [(shortened.kept stem ext eight).2]
    rfl

theorem createName_none (stale : Nat → Nat) (wrong : ¬ Valid path) :
    (createName path stale).1 = none := by
  by_cases legal : (∀ b ∈ segment path, b.toNat ∉ illegal) ∧ 0 + (segment path).length ≤ 255
  · unfold createName
    rw [segmentLoop_eq legal.1 legal.2]
    dsimp only
    have empty : segmentName path = [] := by
      by_contra some'
      exact wrong ⟨legal.1, by omega, some'⟩
    have zero : snip (store stale 0 ((segment path).map uni)) (0 + (segment path).length) = 0 := by
      rw [Nat.zero_add, snip_eq segment_spells]
      exact List.length_eq_zero_iff.mpr empty
    rw [if_pos zero]
  · have none' := @segmentLoop_none stale path 0 (Nat.zero_le 255) legal
    unfold createName
    generalize segmentLoop path stale 0 = r at *
    obtain ⟨lfn, o⟩ := r
    cases none'
    rfl

/-- What has been made of the first segment. -/
structure Created.Names (path : List Byte) (c : Created) : Prop where
  holds : Holds c.lfn ((segmentName path).map uni)
  form : c.nsflag &&& 0x01 = 0 ↔ ∃ stem ext, Eight (segmentName path) stem ext
  fn : ∀ stem ext, Eight (segmentName path) stem ext → c.fn = directoryForm stem ext
  plain : c.nsflag &&& 0x40 = 0
  named : c.nsflag &&& 0x80 = 0
  last : c.nsflag &&& 0x04 ≠ 0 ↔ isTerminator (char (following path)) = true
  path : c.nsflag &&& 0x04 = 0 → c.path = following path

theorem createName_valid (stale : Nat → Nat) (valid : Valid path) :
    ∃ c, createName path stale = (some c, c.lfn) ∧ c.Names path := by
  obtain ⟨legal, short, some'⟩ := valid
  have positive : (segmentName path).length ≠ 0 :=
    fun zero => some' (List.length_eq_zero_iff.mp zero)
  have cut : snip (store stale 0 ((segment path).map uni)) (0 + (segment path).length) =
      (segmentName path).length := by
    rw [Nat.zero_add, snip_eq segment_spells]
    rfl
  unfold createName
  rw [segmentLoop_eq legal (by omega)]
  dsimp only
  rw [cut, if_neg positive]
  have some'' : ∀ c ∈ segmentName path, c.toNat ≠ 0 := by
    intro c mem
    obtain ⟨k, get⟩ := List.mem_iff_getElem?.mp mem
    exact segment_some path c (List.mem_of_getElem? (segmentName_get get))
  have trimmed : trim (segmentName path) = segmentName path := List.rdropWhile_idempotent blank _
  rcases following_cases path with ⟨low, ended⟩ | ⟨high, next⟩
  · simp only [low, true_or, if_true]
    obtain ⟨form, fn⟩ := @shortName_names _ _ 4 (name_spells path stale) name_ended some'' some'
      trimmed rfl
    refine ⟨_, rfl, name_holds short, form, fn, ?_, ?_, ?_, ?_⟩
    · exact shortName_keeps (by decide) rfl rfl
    · exact shortName_keeps (by decide) rfl rfl
    · rw [shortName_keeps (by decide) rfl rfl]
      exact ⟨fun _ => ended, fun _ => by decide⟩
    · rw [shortName_keeps (by decide) rfl rfl]
      exact fun wrong => absurd wrong (by decide)
  · simp only [high, if_false, false_or, next]
    have bits : ∀ cf : Nat, cf = 4 ∨ cf = 0 →
        cf &&& 0x01 = 0 ∧ cf &&& 0x40 = 0 ∧ cf &&& 0x80 = 0 := by
      rintro cf (rfl | rfl) <;> decide
    have last : ((if isTerminator (char (following path)) = true then 4 else 0) : Nat) = 4 ∨
        (if isTerminator (char (following path)) = true then 4 else 0) = 0 := by
      split
      · exact .inl rfl
      · exact .inr rfl
    obtain ⟨whole, plain, named⟩ := bits _ last
    obtain ⟨form, fn⟩ := shortName_names (name_spells path stale) name_ended some'' some' trimmed
      whole
    refine ⟨_, rfl, name_holds short, form, fn, ?_, ?_, ?_, ?_⟩
    · exact (shortName_keeps (by decide) rfl rfl).trans plain
    · exact (shortName_keeps (by decide) rfl rfl).trans named
    · rw [shortName_keeps (by decide) rfl rfl]
      split
      · rename_i ended
        exact ⟨fun _ => ended, fun _ => by decide⟩
      · rename_i more
        exact ⟨fun wrong => absurd rfl wrong, fun ended => absurd ended more⟩
    · exact fun _ => rfl

/-- create_name puts the name of the first segment into the buffer, without the spaces and dots behind
it, and the short name stands for the name if and only if that has the form 8.3. -/
theorem createName_names (path : List Byte) (stale : Nat → Nat) :
    (Valid path → ∃ c, createName path stale = (some c, c.lfn) ∧
        Holds c.lfn ((segmentName path).map uni) ∧
        (c.nsflag &&& 0x01 = 0 ↔ ∃ stem ext, Eight (segmentName path) stem ext) ∧
        (∀ stem ext, Eight (segmentName path) stem ext → c.fn = directoryForm stem ext) ∧
        c.nsflag &&& 0x40 = 0 ∧
        (c.nsflag &&& 0x04 ≠ 0 ↔ isTerminator (char (following path)) = true) ∧
        (c.nsflag &&& 0x04 = 0 → c.path = following path)) ∧
      (¬ Valid path → (createName path stale).1 = none) := by
  refine ⟨fun valid => ?_, createName_none stale⟩
  obtain ⟨c, made, names⟩ := createName_valid stale valid
  exact ⟨c, made, names.holds, names.form, names.fn, names.plain, names.last, names.path⟩

/-- hart1.bin -/
theorem createName_hart1 :
    ∃ c, createName (ascii ['h', 'a', 'r', 't', '1', '.', 'b', 'i', 'n']) (fun _ => 0) = (some c, c.lfn) ∧
      c.fn = ascii ['H', 'A', 'R', 'T', '1', ' ', ' ', ' ', 'B', 'I', 'N'] := by
  have valid : Valid (ascii ['h', 'a', 'r', 't', '1', '.', 'b', 'i', 'n']) := by decide +kernel
  obtain ⟨c, made, -, -, fn, -⟩ := (createName_names _ fun _ => 0).1 valid
  refine ⟨c, made, ?_⟩
  rw [fn (ascii ['h', 'a', 'r', 't', '1']) (ascii ['b', 'i', 'n'])
    ⟨by decide +kernel, by decide, by decide, by decide, by decide +kernel⟩]
  decide +kernel

end Creating

end MultiZone.Fat
