import MultiZone.Fat.Segments
import Mathlib.Data.List.DropRight

/-! The characters of a name on their way into the fields of a short name. -/
namespace MultiZone.Fat
open Memory

def blank (b : Byte) : Bool := b.toNat = 0x20 ∨ b.toNat = 0x2E

/-- A name without the spaces and dots behind it. -/
def trim (name : List Byte) : List Byte := name.rdropWhile blank

/-- The characters lie in the buffer from `si` on. -/
def Spells (lfn : Nat → Nat) (si : Nat) (cs : List Byte) : Prop :=
  ∀ k c, cs[k]? = some c → lfn (si + k) = uni c

def upper (b : Byte) : Byte :=
  if 0x80 ≤ b.toNat then UInt8.ofNat (exCvt.getD (b.toNat &&& 0x7F) 0)
  else if 0x61 ≤ b.toNat ∧ b.toNat ≤ 0x7A then b - 0x20
  else b

def Plain (b : Byte) : Prop := b.toNat ≠ 0x20 ∧ b.toNat ≠ 0x2E ∧ b.toNat ∉ illegalShort

instance (b : Byte) : Decidable (Plain b) := inferInstanceAs (Decidable (_ ∧ _ ∧ _))

/-- The name has the form 8.3. -/
structure Eight (name stem ext : List Byte) : Prop where
  whole : name = if ext = [] then stem else stem ++ 0x2E :: ext
  some_stem : stem ≠ []
  stem_le : stem.length ≤ 8
  ext_le : ext.length ≤ 3
  plain : ∀ b ∈ stem ++ ext, Plain b

def pad (n : Nat) (cs : List Byte) : List Byte := cs ++ List.replicate (n - cs.length) 0x20

/-- The short name of a name that has the form. -/
def directoryForm (stem ext : List Byte) : List Byte :=
  let fn := pad 8 (stem.map upper) ++ pad 3 (ext.map upper)
  if fn.headD 0 = 0xE5 then fn.set 0 0x05 else fn

def put (fn : List Byte) (i : Nat) : List Byte → List Byte
  | [] => fn
  | c :: cs => put (fn.set i c) (i + 1) cs

section Short

variable {lfn : Nat → Nat} {si di n : Nat} {cs : List Byte} {x : Byte} {s : Sfn}

theorem uni_marks : ∀ b < 256, (ffOem2uni b = 0x20 ↔ b = 0x20) ∧
    (ffOem2uni b = 0x2E ↔ b = 0x2E) := by
  decide +kernel

theorem spells_cons {c : Byte} :
    Spells lfn si (c :: cs) ↔ lfn si = uni c ∧ Spells lfn (si + 1) cs := by
  constructor
  · intro all
    refine ⟨all 0 c rfl, fun k c' get => ?_⟩
    rw [Nat.add_right_comm]
    exact all (k + 1) c' get
  · rintro ⟨first, later⟩ k c' get
    cases k with
    | zero =>
      cases get
      exact first
    | succ k =>
      have next := later k c' get
      rwa [Nat.add_right_comm] at next

theorem spells_append {front tail : List Byte} : Spells lfn si (front ++ tail) ↔
    Spells lfn si front ∧ Spells lfn (si + front.length) tail := by
  induction front generalizing si with
  | nil =>
    constructor
    · intro all
      refine ⟨fun k c no => ?_, all⟩
      cases no
    · rintro ⟨-, all⟩
      exact all
  | cons c front ih =>
    rw [List.cons_append, spells_cons, spells_cons, ih, List.length_cons, Nat.add_right_comm,
      Nat.add_assoc si]
    exact and_assoc.symm

theorem snip_eq (spells : Spells lfn 0 cs) : snip lfn cs.length = (trim cs).length := by
  induction cs using List.reverseRecOn with
  | nil => rfl
  | append_singleton cs c ih =>
    have last : lfn cs.length = uni c := by
      rw [← Nat.zero_add cs.length]
      exact spells _ _ List.getElem?_concat_length
    obtain ⟨space, dot⟩ := uni_marks c.toNat c.toNat_lt
    rw [List.length_append, List.length_singleton, snip, trim, List.rdropWhile_concat, last, uni]
    have goes : (ffOem2uni c.toNat ≠ 0x20 ∧ ffOem2uni c.toNat ≠ 0x2E) ↔
        ¬ (c.toNat = 0x20 ∨ c.toNat = 0x2E) := by
      rw [not_or, ← space, ← dot]
    have before : Spells lfn 0 cs := by
      intro k c' get
      apply spells
      rw [List.getElem?_append_left (List.getElem?_eq_some_iff.mp get).1]
      exact get
    by_cases marked : c.toNat = 0x20 ∨ c.toNat = 0x2E
    · have blank' : blank c = true := decide_eq_true marked
      rw [if_neg (fun other => goes.mp other marked), if_pos blank']
      exact ih before
    · have kept : ¬ blank c = true := fun yes => marked (of_decide_eq_true yes)
      rw [if_pos (goes.mpr marked), if_neg kept, List.length_append]
      rfl

theorem sfnChar_flags (wc b cf : Nat) : ∃ f < 2 ^ 2, (sfnChar wc b cf).2.2 = cf ||| f := by
  have extended : ∃ g < 2 ^ 2, (if wc ≥ 0x80 then cf ||| 0x02 else cf) = cf ||| g := by
    split
    · exact ⟨2, by decide, rfl⟩
    · exact ⟨0, by decide, (Nat.or_zero cf).symm⟩
  obtain ⟨g, small, same⟩ := extended
  unfold sfnChar
  rw [same]
  generalize oemUpper wc = c
  dsimp only
  split
  · exact ⟨g ||| 3, Nat.or_lt_two_pow small (by decide), Nat.or_assoc _ _ _⟩
  · split
    · exact ⟨g, small, rfl⟩
    · exact ⟨g, small, rfl⟩

theorem sfnLoop_flags (lfn : Nat → Nat) (di n : Nat) (s : Sfn) :
    ∃ f < 2 ^ 2, (sfnLoop lfn di n s).cf = s.cf ||| f := by
  induction n generalizing s with
  | zero => exact ⟨0, by decide, (Nat.or_zero _).symm⟩
  | succ n ih =>
    have later : ∀ t : Sfn, (∃ g < 2 ^ 2, t.cf = s.cf ||| g) →
        ∃ f < 2 ^ 2, (sfnLoop lfn di n t).cf = s.cf ||| f := by
      rintro t ⟨g, small, same⟩
      obtain ⟨f, small', kept⟩ := ih t
      refine ⟨g ||| f, Nat.or_lt_two_pow small small', ?_⟩
      rw [kept, same, Nat.or_assoc]
    rw [sfnLoop]
    dsimp only
    split
    · exact ⟨0, by decide, (Nat.or_zero _).symm⟩
    · split
      · exact later _ ⟨3, by decide, rfl⟩
      · split
        · split
          · exact ⟨3, by decide, rfl⟩
          · have cf : ∃ g < 2 ^ 2, (if s.si + 1 ≠ di then s.cf ||| 0x03 else s.cf) = s.cf ||| g := by
              split
              · exact ⟨3, by decide, rfl⟩
              · exact ⟨0, by decide, (Nat.or_zero _).symm⟩
            split
            · exact cf
            · exact later _ cf
        · exact later _ (sfnChar_flags _ _ _)

theorem lossy {cf f : Nat} (loss : cf &&& 1 ≠ 0) : (cf ||| f) &&& 1 ≠ 0 := by
  rw [Nat.and_or_distrib_right]
  intro zero
  exact loss (Nat.or_eq_zero_iff.mp zero).1

theorem lossy_three (cf : Nat) : (cf ||| 3) &&& 1 ≠ 0 := by
  rw [Nat.or_comm]
  exact lossy (by decide)

theorem sfnLoop_lossy (loss : s.cf &&& 1 ≠ 0) : (sfnLoop lfn di n s).cf &&& 1 ≠ 0 := by
  obtain ⟨f, -, kept⟩ := sfnLoop_flags lfn di n s
  rw [kept]
  exact lossy loss

/-- The upper half of the code page has nothing that is illegal or small in a short name. -/
theorem upper_half : ∀ b < 256, 0x80 ≤ b → (b &&& 0x80 ≠ 0 ∧ b ∉ illegalShort) ∧
    exCvt.getD (b &&& 0x7F) 0 ∉ 0 :: illegalShort ∧ exCvt.getD (b &&& 0x7F) 0 < 256 ∧
    ¬ (0x61 ≤ exCvt.getD (b &&& 0x7F) 0 ∧ exCvt.getD (b &&& 0x7F) 0 ≤ 0x7A) := by
  decide +kernel

theorem or_two (cf : Nat) : (cf ||| 2) &&& 1 = cf &&& 1 := by
  rw [Nat.and_or_distrib_right]
  exact Nat.or_zero _

theorem sfnChar_plain (b cf : Nat) (some' : x.toNat ≠ 0) (plain : x.toNat ∉ illegalShort) :
    ∃ b' cf', sfnChar (uni x) b cf = ((upper x).toNat, b', cf') ∧ cf' &&& 1 = cf &&& 1 := by
  obtain ⟨back, high, low, -⟩ := oem_back x.toNat x.toNat_lt
  unfold sfnChar upper
  by_cases upperHalf : 0x80 ≤ x.toNat
  · have above : uni x ≥ 0x80 := high.mpr upperHalf
    obtain ⟨⟨bit, -⟩, legal, byte, lower⟩ := upper_half x.toNat x.toNat_lt upperHalf
    have kept : oemUpper (uni x) = exCvt.getD (x.toNat &&& 0x7F) 0 := by
      unfold oemUpper
      dsimp only
      rw [if_pos above, uni, back, if_pos bit]
    have legal' : ¬ (exCvt.getD (x.toNat &&& 0x7F) 0 = 0 ∨
        exCvt.getD (x.toNat &&& 0x7F) 0 ∈ illegalShort) := by
      rw [← List.mem_cons]
      exact legal
    dsimp only
    rw [kept, if_pos above, if_neg legal', if_neg lower, if_pos upperHalf,
      UInt8.toNat_ofNat_of_lt' byte]
    exact ⟨_, _, rfl, or_two cf⟩
  · have below : ¬ uni x ≥ 0x80 := fun yes => upperHalf (high.mp yes)
    have same : uni x = x.toNat := low (Nat.lt_of_not_le below)
    have kept : oemUpper (uni x) = x.toNat := (if_neg below).trans same
    have legal : ¬ (x.toNat = 0 ∨ x.toNat ∈ illegalShort) := by
      rintro (zero | no)
      · exact some' zero
      · exact plain no
    dsimp only
    rw [kept, if_neg below, if_neg legal, if_neg upperHalf]
    split
    · rename_i lower
      have shifted : (x - 0x20).toNat = x.toNat - 0x20 :=
        UInt8.toNat_sub_of_le _ _ (UInt8.le_iff_toNat_le.mpr (Nat.le_trans (by decide) lower.1))
      rw [shifted]
      exact ⟨_, _, rfl, rfl⟩
    · exact ⟨_, _, rfl, rfl⟩

theorem sfnChar_illegal {b cf : Nat} (illegal : x.toNat ∈ illegalShort) :
    (sfnChar (uni x) b cf).2.2 &&& 1 ≠ 0 := by
  obtain ⟨-, high, low, -⟩ := oem_back x.toNat x.toNat_lt
  have ascii : ¬ 0x80 ≤ uni x := fun yes =>
    (upper_half x.toNat x.toNat_lt (high.mp yes)).1.2 illegal
  have same : uni x = x.toNat := low (Nat.lt_of_not_le ascii)
  have kept : oemUpper (uni x) = x.toNat := (if_neg ascii).trans same
  unfold sfnChar
  dsimp only
  rw [kept, if_pos (.inr illegal)]
  exact lossy_three _

theorem sfnLoop_plain (char : lfn s.si = uni x) (some' : x.toNat ≠ 0) (plain : Plain x)
    (apart : s.si + 1 ≠ di) (room : s.i < s.ni) :
    ∃ b cf, sfnLoop lfn di (n + 1) s =
        sfnLoop lfn di n ⟨s.si + 1, s.i + 1, s.ni, b, cf, s.fn.set s.i (upper x)⟩ ∧
      cf &&& 1 = s.cf &&& 1 := by
  obtain ⟨space, dot⟩ := uni_marks x.toNat x.toNat_lt
  obtain ⟨-, -, -, zero⟩ := oem_back x.toNat x.toNat_lt
  obtain ⟨unlike, undotted, legal⟩ := plain
  obtain ⟨b, cf, made, kept⟩ := sfnChar_plain s.b s.cf some' legal
  refine ⟨b, cf, ?_, kept⟩
  have some'' : uni x ≠ 0 := fun none' => some' (zero.mp none')
  have goes : ¬ (uni x = 0x20 ∨ uni x = 0x2E ∧ s.si + 1 ≠ di) := by
    rintro (blank | ⟨stop, -⟩)
    · exact unlike (space.mp blank)
    · exact undotted (dot.mp stop)
  have inside : ¬ (s.i ≥ s.ni ∨ s.si + 1 = di) := by
    rintro (full | same)
    · exact absurd room (Nat.not_lt.mpr full)
    · exact apart same
  rw [sfnLoop]
  dsimp only
  rw [char, if_neg some'', if_neg goes, if_neg inside, made,
    UInt8.ofNat_toNat]

theorem sfnLoop_loses (char : lfn s.si = uni x) (some' : x.toNat ≠ 0) (apart : s.si + 1 ≠ di)
    (bad : ¬ (Plain x ∧ s.i < s.ni)) : (sfnLoop lfn di (n + 1) s).cf &&& 1 ≠ 0 := by
  obtain ⟨space, dot⟩ := uni_marks x.toNat x.toNat_lt
  obtain ⟨-, -, -, zero⟩ := oem_back x.toNat x.toNat_lt
  have some'' : uni x ≠ 0 := fun none' => some' (zero.mp none')
  rw [sfnLoop]
  dsimp only
  rw [char, if_neg some'']
  split
  · exact sfnLoop_lossy (lossy_three _)
  · rename_i goes
    split
    · split
      · exact lossy_three _
      · split
        · exact lossy_three _
        · exact sfnLoop_lossy (lossy_three _)
    · rename_i inside
      have illegal : x.toNat ∈ illegalShort := by
        by_contra legal
        refine bad ⟨⟨?_, ?_, legal⟩, ?_⟩
        · exact fun blank => goes (.inl (space.mpr blank))
        · exact fun stop => goes (.inr ⟨dot.mpr stop, apart⟩)
        · exact Nat.lt_of_not_le fun full => inside (.inl full)
      exact sfnLoop_lossy (sfnChar_illegal illegal)

theorem sfnLoop_field (spells : Spells lfn s.si cs) (some' : ∀ c ∈ cs, c.toNat ≠ 0)
    (apart : ∀ k < cs.length, s.si + k + 1 ≠ di) (plain : ∀ c ∈ cs, Plain c)
    (room : s.i + cs.length ≤ s.ni) :
    ∃ b cf, sfnLoop lfn di (n + cs.length) s =
        sfnLoop lfn di n ⟨s.si + cs.length, s.i + cs.length, s.ni, b, cf, put s.fn s.i (cs.map upper)⟩ ∧
      cf &&& 1 = s.cf &&& 1 := by
  induction cs generalizing s with
  | nil => exact ⟨s.b, s.cf, rfl, rfl⟩
  | cons c cs ih =>
    obtain ⟨char, later⟩ := spells_cons.mp spells
    obtain ⟨plain', rest⟩ := List.forall_mem_cons.mp plain
    obtain ⟨some'', others⟩ := List.forall_mem_cons.mp some'
    rw [List.length_cons] at room
    obtain ⟨b, cf, made, kept⟩ := sfnLoop_plain (n := n + cs.length) char some'' plain'
      (apart 0 (Nat.succ_pos _)) (by omega)
    obtain ⟨b', cf', made', kept'⟩ :=
      ih (s := ⟨s.si + 1, s.i + 1, s.ni, b, cf, s.fn.set s.i (upper c)⟩) later others
        (fun k low => by
          have far := apart (k + 1) (Nat.succ_lt_succ low)
          dsimp only
          omega) rest (by dsimp only; omega)
    refine ⟨b', cf', ?_, kept'.trans kept⟩
    rw [List.length_cons, ← Nat.add_assoc n, made, made', List.map_cons, put]
    dsimp only
    rw [Nat.add_assoc s.si, Nat.add_comm 1, Nat.add_assoc s.i, Nat.add_comm 1]

theorem sfnLoop_unfit (spells : Spells lfn s.si cs) (some' : ∀ c ∈ cs, c.toNat ≠ 0)
    (apart : ∀ k < cs.length, s.si + k + 1 ≠ di) (start : s.i ≤ s.ni)
    (bad : ¬ ((∀ c ∈ cs, Plain c) ∧ s.i + cs.length ≤ s.ni)) :
    (sfnLoop lfn di (n + cs.length) s).cf &&& 1 ≠ 0 := by
  induction cs generalizing s with
  | nil => exact absurd ⟨fun c no => absurd no List.not_mem_nil, start⟩ bad
  | cons c cs ih =>
    obtain ⟨char, later⟩ := spells_cons.mp spells
    obtain ⟨some'', others⟩ := List.forall_mem_cons.mp some'
    rw [List.length_cons, ← Nat.add_assoc n]
    by_cases fits : Plain c ∧ s.i < s.ni
    · obtain ⟨b, cf, made, kept⟩ := sfnLoop_plain (n := n + cs.length) char some'' fits.1
        (apart 0 (Nat.succ_pos _)) fits.2
      rw [made]
      apply ih later others
      · intro k low
        have far := apart (k + 1) (Nat.succ_lt_succ low)
        dsimp only
        omega
      · exact fits.2
      · rintro ⟨rest, room⟩
        dsimp only at room
        refine bad ⟨List.forall_mem_cons.mpr ⟨fits.1, rest⟩, ?_⟩
        rw [List.length_cons]
        omega
    · exact sfnLoop_loses char some'' (apart 0 (Nat.succ_pos _)) fits

theorem or_clear {cf f m : Nat} (clear : f &&& m = 0) : (cf ||| f) &&& m = cf &&& m := by
  rw [Nat.and_or_distrib_right, clear, Nat.or_zero]

theorem sfnFinish_fn (s : Sfn) :
    (sfnFinish s).1 = if s.fn.headD 0 = 0xE5 then s.fn.set 0 0x05 else s.fn := by
  unfold sfnFinish
  dsimp only
  generalize (if s.ni = 8 then s.b <<< 2 else s.b) = b
  generalize (if b &&& 0x0C = 0x0C ∨ b &&& 0x03 = 0x03 then s.cf ||| 0x02 else s.cf) = cf
  split <;> rfl

theorem sfnFinish_cf {m : Nat} (two : 0x02 &&& m = 0) (body : 0x08 &&& m = 0)
    (ext : 0x10 &&& m = 0) :
    (sfnFinish s).2 &&& m = s.cf &&& m := by
  unfold sfnFinish
  dsimp only
  generalize (if s.ni = 8 then s.b <<< 2 else s.b) = b
  have composite : (if b &&& 0x0C = 0x0C ∨ b &&& 0x03 = 0x03 then s.cf ||| 0x02 else s.cf) &&& m =
      s.cf &&& m := by
    split
    · exact or_clear two
    · rfl
  generalize (if b &&& 0x0C = 0x0C ∨ b &&& 0x03 = 0x03 then s.cf ||| 0x02 else s.cf) = cf at *
  have small : (if b &&& 0x01 ≠ 0 then cf ||| 0x10 else cf) &&& m = s.cf &&& m := by
    split
    · exact (or_clear ext).trans composite
    · exact composite
  split
  · dsimp only
    split
    · exact (or_clear body).trans small
    · exact small
  · exact composite

theorem put_eq {fn : List Byte} {i : Nat} (room : i + cs.length ≤ fn.length) :
    put fn i cs = fn.take i ++ cs ++ fn.drop (i + cs.length) := by
  induction cs generalizing fn i with
  | nil => rw [put, List.length_nil, Nat.add_zero, List.append_nil, List.take_append_drop]
  | cons c cs ih =>
    rw [List.length_cons] at room
    have here : i < fn.length := by omega
    have before : (fn.take i).length = i := List.length_take_of_le (Nat.le_of_lt here)
    have split' : fn.set i c = fn.take i ++ c :: fn.drop (i + 1) :=
      List.set_eq_take_append_cons_drop.trans (if_pos here)
    have front : (fn.set i c).take (i + 1) = fn.take i ++ [c] := by
      rw [split', List.take_append, before, List.take_of_length_le (by omega),
        Nat.add_sub_cancel_left]
      rfl
    have back : (fn.set i c).drop (i + 1 + cs.length) = fn.drop (i + (cs.length + 1)) := by
      rw [List.drop_set_of_lt (by omega), Nat.add_assoc, Nat.add_comm 1]
    rw [put, ih (by rw [List.length_set]; omega), front, back, List.length_cons,
      List.append_assoc _ [c]]
    rfl

theorem lastDot_tail {front tail : List Byte} (spells : Spells lfn 0 (front ++ tail))
    (none' : ∀ c ∈ tail, c.toNat ≠ 0x2E) :
    lastDot lfn (front ++ tail).length = lastDot lfn front.length := by
  induction tail using List.reverseRecOn with
  | nil => rw [List.append_nil]
  | append_singleton tail c ih =>
    have last : lfn (front ++ tail).length = uni c := by
      rw [← Nat.zero_add (front ++ tail).length]
      apply spells
      rw [← List.append_assoc]
      exact List.getElem?_concat_length
    have before : Spells lfn 0 (front ++ tail) := by
      intro k c' get
      apply spells
      rw [← List.append_assoc, List.getElem?_append_left (List.getElem?_eq_some_iff.mp get).1]
      exact get
    have unlike : uni c ≠ 0x2E := fun dot =>
      none' c (List.mem_append_right _ (List.mem_singleton_self c))
        ((uni_marks c.toNat c.toNat_lt).2.mp dot)
    rw [← List.append_assoc, List.length_append, List.length_singleton, lastDot, last,
      if_pos unlike]
    exact ih before fun c' mem => none' c' (List.mem_append_left _ mem)

end Short

end MultiZone.Fat
