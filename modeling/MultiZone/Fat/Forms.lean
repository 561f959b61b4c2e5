import MultiZone.Fat.ShortNames

/-! Which names are short names. The last dot of a name parts the fields, and a name that does not have
the form 8.3 is marked as lost. -/
namespace MultiZone.Fat
open Memory

section Forms

variable {lfn : Nat → Nat} {name stem ext : List Byte} {cf : Nat}

theorem put_stem (few : (stem.map upper).length ≤ 8) :
    put (List.replicate 11 0x20) 0 (stem.map upper) =
      pad 8 (stem.map upper) ++ List.replicate 3 0x20 := by
  rw [put_eq (by rw [List.length_replicate]; omega), List.take_zero, List.nil_append, Nat.zero_add,
    List.drop_replicate, pad, List.append_assoc, List.replicate_append_replicate]
  congr 2
  omega

theorem pad_length {n : Nat} (few : stem.length ≤ n) : (pad n stem).length = n := by
  rw [pad, List.length_append, List.length_replicate]
  omega

theorem put_ext {front : List Byte} (length : front.length = 8) (few : ext.length ≤ 3) :
    put (front ++ List.replicate 3 0x20) 8 ext = front ++ pad 3 ext := by
  rw [put_eq (by rw [List.length_append, List.length_replicate]; omega), ← length, List.take_left,
    List.drop_append, List.drop_eq_nil_of_le (Nat.le_add_right _ _), List.nil_append,
    Nat.add_sub_cancel_left, List.drop_replicate, pad, List.append_assoc]

/-- What the loop leaves of a name, with `fits` if it can be a short name. -/
structure Result (cf : Nat) (fits : Prop) (fn : List Byte) (s : Sfn) : Prop where
  kept : fits → s.cf &&& 1 = cf &&& 1 ∧ s.fn = fn
  lost : ¬ fits → s.cf &&& 1 ≠ 0

theorem sfnLoop_end {n di : Nat} {s : Sfn} (ended : lfn s.si = 0) :
    sfnLoop lfn di (n + 1) s = { s with si := s.si + 1 } := by
  rw [sfnLoop]
  dsimp only
  rw [if_pos ended]

theorem sfnLoop_stem (cf : Nat) (spells : Spells lfn 0 stem) (ended : lfn stem.length = 0)
    (some' : ∀ c ∈ stem, c.toNat ≠ 0) :
    Result cf ((∀ c ∈ stem, Plain c) ∧ stem.length ≤ 8) (pad 8 (stem.map upper) ++ pad 3 [])
      (sfnLoop lfn 0 (2 + stem.length) ⟨0, 0, 8, 0, cf, List.replicate 11 0x20⟩) := by
  constructor
  · rintro ⟨plain, few⟩
    obtain ⟨b, cf', made, kept⟩ := sfnLoop_field (n := 2)
      (s := ⟨0, 0, 8, 0, cf, List.replicate 11 0x20⟩) spells some'
      (fun k _ => Nat.succ_ne_zero (0 + k)) plain
      (by dsimp only; omega)
    dsimp only at made kept
    rw [Nat.zero_add] at made
    rw [made, sfnLoop_end ended]
    exact ⟨kept, put_stem (by rw [List.length_map]; exact few)⟩
  · intro bad
    apply sfnLoop_unfit spells some' (fun k _ => Nat.succ_ne_zero _) (Nat.zero_le 8)
    rintro ⟨plain, few⟩
    dsimp only at few
    exact bad ⟨plain, by omega⟩

theorem sfnLoop_dot {n di : Nat} {s : Sfn} (dot : lfn s.si = 0x2E) (here : s.si + 1 = di)
    (body : s.ni = 8) : sfnLoop lfn di (n + 1) s =
      sfnLoop lfn di n { s with si := di, i := 8, ni := 11, b := s.b <<< 2 } := by
  have goes : ¬ (0x2E = 0x20 ∨ 0x2E = 0x2E ∧ s.si + 1 ≠ di) := by
    rintro (wrong | ⟨-, apart⟩)
    · cases wrong
    · exact apart here
  have other : ¬ s.ni = 11 := by
    rw [body]
    decide
  have inside : ¬ s.si + 1 > di := Nat.not_lt.mpr (Nat.le_of_eq here)
  rw [sfnLoop]
  dsimp only
  rw [dot, if_neg (by decide : ¬ 0x2E = 0), if_neg goes, if_pos (.inr here), if_neg other,
    if_neg inside, if_neg (fun apart => apart here)]

theorem sfnLoop_split (cf : Nat) (spells : Spells lfn 0 (stem ++ 0x2E :: ext))
    (ended : lfn (stem.length + 1 + ext.length) = 0) (some' : ∀ c ∈ stem ++ ext, c.toNat ≠ 0) :
    Result cf ((∀ c ∈ stem ++ ext, Plain c) ∧ stem.length ≤ 8 ∧ ext.length ≤ 3)
      (pad 8 (stem.map upper) ++ pad 3 (ext.map upper))
      (sfnLoop lfn (stem.length + 1) (2 + ext.length + 1 + stem.length)
        ⟨0, 0, 8, 0, cf, List.replicate 11 0x20⟩) := by
  obtain ⟨front, rest⟩ := spells_append.mp spells
  obtain ⟨dot, tail⟩ := spells_cons.mp rest
  rw [Nat.zero_add] at dot tail
  have apart : ∀ k < stem.length, 0 + k + 1 ≠ stem.length + 1 := by omega
  have apart' : ∀ k < ext.length, stem.length + 1 + k + 1 ≠ stem.length + 1 := by omega
  have someStem : ∀ c ∈ stem, c.toNat ≠ 0 := fun c mem => some' c (List.mem_append_left _ mem)
  have someExt : ∀ c ∈ ext, c.toNat ≠ 0 := fun c mem => some' c (List.mem_append_right _ mem)
  by_cases body : (∀ c ∈ stem, Plain c) ∧ stem.length ≤ 8
  · obtain ⟨b, cf', made, kept⟩ := sfnLoop_field (n := 2 + ext.length + 1)
      (s := ⟨0, 0, 8, 0, cf, List.replicate 11 0x20⟩) front someStem apart body.1
      (by dsimp only; omega)
    have short : (stem.map upper).length ≤ 8 := by
      rw [List.length_map]
      exact body.2
    dsimp only at made kept
    have entered := sfnLoop_dot (n := 2 + ext.length) (s := ⟨stem.length, stem.length, 8, b, cf',
      pad 8 (stem.map upper) ++ List.replicate 3 0x20⟩) (dot.trans (by decide)) rfl rfl
    dsimp only at entered
    rw [put_stem short, Nat.zero_add, entered] at made
    rw [made]
    constructor
    · rintro ⟨plain, -, few⟩
      obtain ⟨b', cf'', made', kept'⟩ := sfnLoop_field (n := 2)
        (s := ⟨stem.length + 1, 8, 11, b <<< 2, cf',
          pad 8 (stem.map upper) ++ List.replicate 3 0x20⟩) tail someExt apart'
        (fun c mem => plain c (List.mem_append_right _ mem)) (by dsimp only; omega)
      dsimp only at made' kept'
      rw [made', sfnLoop_end ended]
      exact ⟨kept'.trans kept,
        put_ext (pad_length short) (by rw [List.length_map]; exact few)⟩
    · intro bad
      apply sfnLoop_unfit tail someExt apart' (by decide : 8 ≤ 11)
      rintro ⟨plain, few⟩
      dsimp only at few
      exact bad ⟨List.forall_mem_append.mpr ⟨body.1, plain⟩, body.2, by omega⟩
  · have loss : (sfnLoop lfn (stem.length + 1) (2 + ext.length + 1 + stem.length)
        ⟨0, 0, 8, 0, cf, List.replicate 11 0x20⟩).cf &&& 1 ≠ 0 := by
      apply sfnLoop_unfit front someStem apart (Nat.zero_le 8)
      rintro ⟨plain, few⟩
      dsimp only at few
      exact body ⟨plain, by omega⟩
    refine ⟨?_, fun _ => loss⟩
    rintro ⟨plain, few, -⟩
    exact absurd ⟨fun c mem => plain c (List.mem_append_left _ mem), few⟩ body

theorem skipSpaces_ge (lfn : Nat → Nat) (n si : Nat) : si ≤ skipSpaces lfn n si := by
  induction n generalizing si with
  | zero => exact Nat.le_refl si
  | succ n ih =>
    rw [skipSpaces]
    split
    · exact Nat.le_trans (Nat.le_succ si) (ih (si + 1))
    · exact Nat.le_refl si

theorem sfnStart_plain {n : Nat} (space : lfn 0 ≠ 0x20) (dot : lfn 0 ≠ 0x2E) :
    sfnStart lfn (n + 1) cf = ⟨0, 0, 8, 0, cf, List.replicate 11 0x20⟩ := by
  have first : skipSpaces lfn (n + 1) 0 = 0 := if_neg space
  have goes : ¬ (0 > 0 ∨ lfn 0 = 0x2E) := by
    rintro (wrong | stop)
    · exact absurd wrong (Nat.lt_irrefl 0)
    · exact dot stop
  unfold sfnStart
  rw [first]
  dsimp only
  rw [if_neg goes]

theorem sfnStart_lost {n : Nat} (marked : lfn 0 = 0x20 ∨ lfn 0 = 0x2E) :
    (sfnStart lfn (n + 1) cf).cf &&& 1 ≠ 0 := by
  have leading : skipSpaces lfn (n + 1) 0 > 0 ∨ lfn (skipSpaces lfn (n + 1) 0) = 0x2E := by
    by_cases space : lfn 0 = 0x20
    · left
      rw [skipSpaces, if_pos space]
      exact skipSpaces_ge lfn n 1
    · right
      rw [skipSpaces, if_neg space]
      exact marked.resolve_left space
  unfold sfnStart
  dsimp only
  rw [if_pos leading]
  exact lossy_three cf

theorem last_split (name : List Byte) : (∀ c ∈ name, c.toNat ≠ 0x2E) ∨
    ∃ stem ext, name = stem ++ 0x2E :: ext ∧ ∀ c ∈ ext, c.toNat ≠ 0x2E := by
  induction name with
  | nil => exact .inl fun c no => absurd no List.not_mem_nil
  | cons c name ih =>
    rcases ih with none' | ⟨stem, ext, rfl, none'⟩
    · by_cases dot : c.toNat = 0x2E
      · obtain rfl : c = 0x2E := UInt8.toNat_inj.mp dot
        exact .inr ⟨[], name, rfl, none'⟩
      · exact .inl (List.forall_mem_cons.mpr ⟨dot, none'⟩)
    · exact .inr ⟨c :: stem, ext, rfl, none'⟩

theorem split_unique {stem' ext' : List Byte} (same : stem ++ 0x2E :: ext = stem' ++ 0x2E :: ext')
    (none' : ∀ c ∈ ext, c.toNat ≠ 0x2E) (none'' : ∀ c ∈ ext', c.toNat ≠ 0x2E) :
    stem = stem' ∧ ext = ext' := by
  rcases List.append_eq_append_iff.mp same with ⟨t, front, back⟩ | ⟨t, front, back⟩
  · cases t with
    | nil =>
      cases back
      exact ⟨(front.trans (List.append_nil _)).symm, rfl⟩
    | cons x t =>
      injection back with _ back
      exact absurd rfl (none' 0x2E (back ▸ List.mem_append_right _ List.mem_cons_self))
  · cases t with
    | nil =>
      cases back
      exact ⟨front.trans (List.append_nil _), rfl⟩
    | cons x t =>
      injection back with _ back
      exact absurd rfl (none'' 0x2E (back ▸ List.mem_append_right _ List.mem_cons_self))

theorem Eight.first {c : Byte} {rest : List Byte} (eight : Eight (c :: rest) stem ext) : Plain c := by
  have whole := eight.whole
  cases stem with
  | nil => exact absurd rfl eight.some_stem
  | cons x stem =>
    have same : c = x := by
      split at whole
      · exact (List.cons.inj whole).1
      · exact (List.cons.inj whole).1
    rw [same]
    exact eight.plain x List.mem_cons_self

theorem Eight.undotted (none' : ∀ c ∈ name, c.toNat ≠ 0x2E) (eight : Eight name stem ext) :
    stem = name ∧ ext = [] := by
  have whole := eight.whole
  split at whole
  · rename_i empty
    exact ⟨whole.symm, empty⟩
  · exact absurd rfl (none' 0x2E (whole ▸ List.mem_append_right _ List.mem_cons_self))

theorem Eight.dotted {stem' ext' : List Byte} (split' : name = stem' ++ 0x2E :: ext')
    (none' : ∀ c ∈ ext', c.toNat ≠ 0x2E) (eight : Eight name stem ext) : stem = stem' ∧ ext = ext' := by
  have whole := eight.whole
  split at whole
  · have among : 0x2E ∈ stem := by
      rw [← whole, split']
      exact List.mem_append_right _ List.mem_cons_self
    exact absurd rfl (eight.plain 0x2E (List.mem_append_left _ among)).2.1
  · apply split_unique (whole.symm.trans split') _ none'
    intro c mem
    exact (eight.plain c (List.mem_append_right _ mem)).2.1

theorem trim_dot (front : List Byte) : trim (front ++ [0x2E]) ≠ front ++ [0x2E] := by
  intro same
  have shorter := (List.rdropWhile_prefix blank (l := front)).length_le
  have cut : trim (front ++ [0x2E]) = front.rdropWhile blank := List.rdropWhile_concat_pos _ _ _ rfl
  rw [same] at cut
  rw [← cut, List.length_append] at shorter
  exact absurd shorter (Nat.not_succ_le_self _)

/-- What create_name makes of a name in the buffer: the short name if there is one, and whether there
is. -/
structure Shortened (cf : Nat) (name : List Byte) (s : Sfn) : Prop where
  kept : ∀ stem ext, Eight name stem ext →
    s.cf &&& 1 = cf &&& 1 ∧ s.fn = pad 8 (stem.map upper) ++ pad 3 (ext.map upper)
  lost : (¬ ∃ stem ext, Eight name stem ext) → s.cf &&& 1 ≠ 0

theorem Result.shortened {fits : Prop} {s : Sfn}
    (result : Result cf fits (pad 8 (stem.map upper) ++ pad 3 (ext.map upper)) s)
    (eight : fits → Eight name stem ext)
    (only : ∀ stem' ext', Eight name stem' ext' → stem' = stem ∧ ext' = ext)
    (fitting : Eight name stem ext → fits) : Shortened cf name s := by
  constructor
  · intro stem' ext' eight'
    obtain ⟨rfl, rfl⟩ := only stem' ext' eight'
    exact result.kept (fitting eight')
  · intro none'
    exact result.lost fun fits => none' ⟨stem, ext, eight fits⟩

theorem sfnLoop_undotted (cf : Nat) (spells : Spells lfn 0 name) (ended : lfn name.length = 0)
    (some' : ∀ c ∈ name, c.toNat ≠ 0) (positive : name ≠ [])
    (none' : ∀ c ∈ name, c.toNat ≠ 0x2E) :
    Shortened cf name
      (sfnLoop lfn 0 (2 + name.length) ⟨0, 0, 8, 0, cf, List.replicate 11 0x20⟩) := by
  apply @Result.shortened name name [] cf _ _ (sfnLoop_stem cf spells ended some')
  · rintro ⟨plain, few⟩
    refine ⟨rfl, positive, few, Nat.zero_le 3, ?_⟩
    rw [List.append_nil]
    exact plain
  · exact fun stem ext eight => eight.undotted none'
  · exact fun eight => ⟨fun c mem => eight.plain c (List.mem_append_left _ mem), eight.stem_le⟩

theorem sfnLoop_dotted (cf : Nat) (split' : name = stem ++ 0x2E :: ext) (spells : Spells lfn 0 name)
    (ended : lfn name.length = 0) (some' : ∀ c ∈ name, c.toNat ≠ 0) (some_stem : stem ≠ [])
    (some_ext : ext ≠ []) (none' : ∀ c ∈ ext, c.toNat ≠ 0x2E) :
    Shortened cf name (sfnLoop lfn (stem.length + 1) (2 + ext.length + 1 + stem.length)
      ⟨0, 0, 8, 0, cf, List.replicate 11 0x20⟩) := by
  have total : name.length = stem.length + 1 + ext.length := by
    rw [split', List.length_append, List.length_cons, Nat.add_assoc, Nat.add_comm 1]
  have parts : ∀ c ∈ stem ++ ext, c.toNat ≠ 0 := by
    intro c mem
    apply some'
    rw [split']
    rcases List.mem_append.mp mem with front | back
    · exact List.mem_append_left _ front
    · exact List.mem_append_right _ (.tail _ back)
  apply (sfnLoop_split cf (split' ▸ spells) (total ▸ ended) parts).shortened
  · rintro ⟨plain, stem_le, ext_le⟩
    exact ⟨by rw [if_neg some_ext, split'], some_stem, stem_le, ext_le, plain⟩
  · exact fun stem' ext' eight => eight.dotted split' none'
  · exact fun eight => ⟨eight.plain, eight.stem_le, eight.ext_le⟩

theorem lastDot_dotted (split' : name = stem ++ 0x2E :: ext) (spells : Spells lfn 0 name)
    (none' : ∀ c ∈ ext, c.toNat ≠ 0x2E) : lastDot lfn name.length = stem.length + 1 := by
  have get : name[stem.length]? = some 0x2E := by
    rw [split', List.getElem?_append_right (Nat.le_refl _), Nat.sub_self]
    rfl
  have last : lfn stem.length = 0x2E := by
    have here := spells _ _ get
    rw [Nat.zero_add] at here
    exact here
  have whole : name = (stem ++ [0x2E]) ++ ext := by rw [split', List.append_assoc]; rfl
  rw [whole, lastDot_tail (whole ▸ spells) none', List.length_append, List.length_singleton,
    lastDot, if_neg (fun unlike => unlike last)]

/-- A name that begins with a space or a dot has no short name. -/
theorem sfnLoop_marked {c : Byte} {rest : List Byte} (di n : Nat)
    (marked : c.toNat = 0x20 ∨ c.toNat = 0x2E) (first : lfn 0 = uni c) :
    Shortened cf (c :: rest) (sfnLoop lfn di n (sfnStart lfn (rest.length + 1) cf)) := by
  obtain ⟨space, dot⟩ := uni_marks c.toNat c.toNat_lt
  have none' : ¬ ∃ stem ext, Eight (c :: rest) stem ext := by
    rintro ⟨stem, ext, eight⟩
    rcases marked with blank | stop
    · exact eight.first.1 blank
    · exact eight.first.2.1 stop
  refine ⟨fun stem ext eight => absurd ⟨stem, ext, eight⟩ none', fun _ => ?_⟩
  apply sfnLoop_lossy
  apply sfnStart_lost
  rw [first]
  exact marked.imp space.mpr dot.mpr

theorem sfnLoop_name (cf : Nat) (spells : Spells lfn 0 name) (ended : lfn name.length = 0)
    (some' : ∀ c ∈ name, c.toNat ≠ 0) (positive : name ≠ []) (trimmed : trim name = name) :
    Shortened cf name
      (sfnLoop lfn (lastDot lfn name.length) (name.length + 2) (sfnStart lfn name.length cf)) := by
  obtain ⟨c, rest, cons⟩ := List.exists_cons_of_ne_nil positive
  have first : lfn 0 = uni c := spells 0 c (by rw [cons]; rfl)
  have length : name.length = rest.length + 1 := by rw [cons, List.length_cons]
  by_cases marked : c.toNat = 0x20 ∨ c.toNat = 0x2E
  · rw [length, cons]
    exact sfnLoop_marked _ _ marked first
  obtain ⟨unlike, undotted⟩ := not_or.mp marked
  obtain ⟨space, dot⟩ := uni_marks c.toNat c.toNat_lt
  have start : sfnStart lfn name.length cf = ⟨0, 0, 8, 0, cf, List.replicate 11 0x20⟩ := by
    rw [length]
    apply sfnStart_plain
    · rw [first]
      exact fun blank => unlike (space.mp blank)
    · rw [first]
      exact fun stop => undotted (dot.mp stop)
  rw [start]
  rcases last_split name with none' | ⟨stem, ext, split', none'⟩
  · have undotted' : lastDot lfn name.length = 0 := @lastDot_tail lfn [] name spells none'
    rw [undotted', Nat.add_comm name.length]
    exact sfnLoop_undotted cf spells ended some' positive none'
  · have some_stem : stem ≠ [] := by
      rintro rfl
      rw [cons] at split'
      injection split' with dotted
      exact undotted (congrArg UInt8.toNat dotted)
    have some_ext : ext ≠ [] := by
      rintro rfl
      rw [split'] at trimmed
      exact trim_dot stem trimmed
    have fuel : name.length + 2 = 2 + ext.length + 1 + stem.length := by
      rw [split', List.length_append, List.length_cons]
      omega
    rw [lastDot_dotted split' spells none', fuel]
    exact sfnLoop_dotted cf split' spells ended some' some_stem some_ext none'

end Forms

end MultiZone.Fat
