import MultiZone.Fat.Entries
import MultiZone.Fat.Unicode
import MultiZone.Transition.Scan

/-! The names of a directory of a FAT volume. A long name lies in entries of its own in front of the
file's, the end of the name first, and is compared part by part as they come. -/
namespace MultiZone.Fat
open Memory Transition

abbrev Dirent := Nat → Byte

def lfnOfs : List Nat := [1, 3, 5, 7, 9, 14, 16, 18, 20, 22, 24, 28, 30]

/-- The characters of the entry, up to the last: the one before, and where in the buffer it is. -/
def cmpChars (lfnbuf : Nat → Nat) : List Nat → Nat → Nat → Option (Nat × Nat)
  | [], wc, i => some (wc, i)
  | uc :: rest, wc, i =>
    if wc ≠ 0 then
      if i ≥ 256 ∨ ffWtoupper uc ≠ ffWtoupper (lfnbuf i) then none
      else cmpChars lfnbuf rest uc (i + 1)
    else if uc ≠ 0xFFFF then none
    else cmpChars lfnbuf rest wc i

def Dirent.chars (dir : Dirent) : List Nat := lfnOfs.map (ldWord dir)

def cmpLfn (lfnbuf : Nat → Nat) (dir : Dirent) : Bool :=
  if ldWord dir 26 ≠ 0 then false
  else
    let i := if (dir 0).toNat &&& 0x3F = 0 then 2 ^ 32 - 13 else ((dir 0).toNat &&& 0x3F) * 13 - 13
    match cmpChars lfnbuf dir.chars 1 i with
    | none => false
    | some (wc, i) => !((dir 0).toNat &&& 0x40 ≠ 0 ∧ wc ≠ 0 ∧ lfnbuf i ≠ 0)

def sumSfn (dir : Dirent) : Byte :=
  (window dir 0 11).foldl (fun sum b => (sum >>> 1) + (sum <<< 7) + b) 0

def Dirent.attr (dir : Dirent) : Nat := (dir 11).toNat &&& 0x3F

/-- The loop of dir_find on one entry, with `ord` and `sum` of the entries before. -/
def look (lfnbuf : Nat → Nat) (fn : List Byte) (nsflag : Nat) (seq : Nat × Nat)
    (dir : Dirent) : Look (Nat × Nat) :=
  let c := (dir 0).toNat
  let a := dir.attr
  if c = 0 then .stop
  else if c = 0xE5 ∨ (a &&& 0x08 ≠ 0 ∧ a ≠ 0x0F) then .next (0xFF, seq.2)
  else if a = 0x0F then
    if nsflag &&& 0x40 = 0 then
      let start := c &&& 0x40 ≠ 0
      let sum := if start then (dir 13).toNat else seq.2
      let c := if start then c &&& 0xBF else c
      let ord := if start then c else seq.1
      .next (if c = ord ∧ sum = (dir 13).toNat ∧ cmpLfn lfnbuf dir then (ord + 255) % 256
        else 0xFF, sum)
    else .next seq
  else if seq.1 = 0 ∧ seq.2 = (sumSfn dir).toNat then .found
  else if nsflag &&& 0x01 = 0 ∧ window dir 0 11 = fn then .found
  else .next (0xFF, seq.2)

def Dirent.End (dir : Dirent) : Prop := (dir 0).toNat = 0

def Dirent.Long (dir : Dirent) : Prop :=
  (dir 0).toNat ≠ 0 ∧ (dir 0).toNat ≠ 0xE5 ∧ dir.attr = 0x0F

def Dirent.Short (dir : Dirent) : Prop :=
  (dir 0).toNat ≠ 0 ∧ (dir 0).toNat ≠ 0xE5 ∧ dir.attr &&& 0x08 = 0

instance (dir : Dirent) : Decidable dir.End := inferInstanceAs (Decidable (_ = _))
instance (dir : Dirent) : Decidable dir.Long := inferInstanceAs (Decidable (_ ∧ _))
instance (dir : Dirent) : Decidable dir.Short := inferInstanceAs (Decidable (_ ∧ _))

/-- The entries passed, the last of them first, end with parts of one name that agree with the
buffer: all the parts of the name but the first `m`. -/
inductive Agreeing (lfnbuf : Nat → Nat) (sum : Nat) : Nat → List Dirent → Prop where
  | last {m : Nat} {dir : Dirent} {before : List Dirent} : dir.Long → (dir 0).toNat &&& 0x40 ≠ 0 →
      (dir 0).toNat &&& 0xBF = m + 1 → (dir 13).toNat = sum → cmpLfn lfnbuf dir = true →
      Agreeing lfnbuf sum m (dir :: before)
  | more {m : Nat} {dir : Dirent} {before : List Dirent} : dir.Long → (dir 0).toNat &&& 0x40 = 0 →
      (dir 0).toNat = m + 1 → (dir 13).toNat = sum → cmpLfn lfnbuf dir = true →
      Agreeing lfnbuf sum (m + 1) before → Agreeing lfnbuf sum m (dir :: before)

/-- A file that is found: its long name agrees, or its short name is the one looked for. -/
def Named (lfnbuf : Nat → Nat) (fn : List Byte) (nsflag : Nat)
    (before : List Dirent) (dir : Dirent) : Prop :=
  dir.Short ∧ (Agreeing lfnbuf (sumSfn dir).toNat 0 before ∨
    nsflag &&& 0x01 = 0 ∧ window dir 0 11 = fn)

section Sequence

variable {lfnbuf : Nat → Nat} {fn : List Byte} {nsflag sum m : Nat}
  {before : List Dirent} {dir : Dirent}

/-- What `ord` and `sum` tell. -/
def Expects (lfnbuf : Nat → Nat) (before : List Dirent) (seq : Nat × Nat) : Prop :=
  ∀ sum m, Agreeing lfnbuf sum m before ↔ seq.1 ≠ 0xFF ∧ seq.1 = m ∧ seq.2 = sum

theorem Expects.reset {seq : Nat × Nat} (other : ¬ dir.Long) (none' : seq.1 = 0xFF) :
    Expects lfnbuf (dir :: before) seq := by
  intro sum m
  constructor
  · intro agreeing
    cases agreeing with
    | last long => exact absurd long other
    | more long => exact absurd long other
  · rintro ⟨some', -⟩
    exact absurd none' some'

theorem cmpLfn_numbered (same : cmpLfn lfnbuf dir = true) : (dir 0).toNat &&& 0x3F ≠ 0 := by
  intro zero
  rw [cmpLfn, zero, if_pos rfl] at same
  split at same
  · cases same
  · have early : cmpChars lfnbuf dir.chars 1 (2 ^ 32 - 13) = none := by
      rw [Dirent.chars, lfnOfs, List.map_cons, cmpChars, if_pos Nat.one_ne_zero,
        if_pos (.inl (by decide))]
    dsimp only at same
    rw [early] at same
    cases same

theorem Dirent.Short.not_long (short : dir.Short) : ¬ dir.Long := by
  rintro ⟨-, -, long⟩
  have volume := short.2.2
  rw [long] at volume
  cases volume

theorem look_end (stop : dir.End) (seq : Nat × Nat) : look lfnbuf fn nsflag seq dir = .stop :=
  if_pos stop

theorem look_short (short : dir.Short) (seq : Nat × Nat) : look lfnbuf fn nsflag seq dir =
    if seq.1 = 0 ∧ seq.2 = (sumSfn dir).toNat ∨ nsflag &&& 0x01 = 0 ∧ window dir 0 11 = fn then .found
    else .next (0xFF, seq.2) := by
  obtain ⟨some', kept, plain⟩ := short
  have unlike : dir.attr ≠ 0x0F := by
    intro same
    rw [same] at plain
    cases plain
  have valid : ¬ ((dir 0).toNat = 0xE5 ∨ dir.attr &&& 0x08 ≠ 0 ∧ dir.attr ≠ 0x0F) := by
    rintro (deleted | ⟨volume, -⟩)
    · exact kept deleted
    · exact volume plain
  unfold look
  dsimp only
  rw [if_neg some', if_neg valid, if_neg unlike]
  rcases Decidable.em (seq.1 = 0 ∧ seq.2 = (sumSfn dir).toNat) with long | other
  · rw [if_pos long, if_pos (.inl long)]
  · rw [if_neg other]
    apply if_congr _ rfl rfl
    exact ⟨.inr, fun either => either.resolve_left other⟩

theorem look_long (flag : nsflag &&& 0x40 = 0) (long : dir.Long) (seq : Nat × Nat) :
    look lfnbuf fn nsflag seq dir = .next
      (if (dir 0).toNat &&& 0x40 ≠ 0 then
        (if cmpLfn lfnbuf dir then (((dir 0).toNat &&& 0xBF) + 255) % 256 else 0xFF, (dir 13).toNat)
      else (if (dir 0).toNat = seq.1 ∧ seq.2 = (dir 13).toNat ∧ cmpLfn lfnbuf dir then
        (seq.1 + 255) % 256 else 0xFF, seq.2)) := by
  obtain ⟨some', kept, attr⟩ := long
  have valid : ¬ ((dir 0).toNat = 0xE5 ∨ dir.attr &&& 0x08 ≠ 0 ∧ dir.attr ≠ 0x0F) := by
    rintro (deleted | ⟨-, unlike⟩)
    · exact kept deleted
    · exact unlike attr
  unfold look
  dsimp only
  rw [if_neg some', if_neg valid, if_pos attr, if_pos flag]
  rcases Decidable.em ((dir 0).toNat &&& 0x40 ≠ 0) with start | within
  · simp only [if_pos start, true_and]
  · simp only [if_neg within]

theorem look_other (some' : ¬ dir.End) (other : ¬ dir.Long) (unlike : ¬ dir.Short)
    (seq : Nat × Nat) :
    look lfnbuf fn nsflag seq dir = .next (0xFF, seq.2) := by
  have valid : (dir 0).toNat = 0xE5 ∨ dir.attr &&& 0x08 ≠ 0 ∧ dir.attr ≠ 0x0F := by
    rcases Decidable.em ((dir 0).toNat = 0xE5) with deleted | kept
    · exact .inl deleted
    · refine .inr ⟨fun plain => unlike ⟨some', kept, plain⟩, fun attr => other ⟨some', kept, attr⟩⟩
  have some'' : (dir 0).toNat ≠ 0 := some'
  unfold look
  dsimp only
  rw [if_neg some'', if_pos valid]

theorem Expects.long {seq : Nat × Nat} (expects : Expects lfnbuf before seq) (long : dir.Long) :
    Expects lfnbuf (dir :: before)
      (if (dir 0).toNat &&& 0x40 ≠ 0 then
        (if cmpLfn lfnbuf dir then (((dir 0).toNat &&& 0xBF) + 255) % 256 else 0xFF, (dir 13).toNat)
      else (if (dir 0).toNat = seq.1 ∧ seq.2 = (dir 13).toNat ∧ cmpLfn lfnbuf dir then
        (seq.1 + 255) % 256 else 0xFF, seq.2)) := by
  have byte := (dir 0).toNat_lt
  have part : (dir 0).toNat &&& 0xBF ≤ 0xBF := Nat.and_le_right
  intro sum m
  rcases Decidable.em ((dir 0).toNat &&& 0x40 ≠ 0) with start | within
  · rw [if_pos start]
    constructor
    · intro agreeing
      cases agreeing with
      | last _ _ number chk same =>
        rw [if_pos same]
        refine ⟨?_, ?_, chk⟩ <;> dsimp only <;> omega
      | more _ no => exact absurd no start
    · rintro ⟨some', same, chk⟩
      dsimp only at some' same chk
      split at some'
      · rename_i agrees
        rw [if_pos agrees] at same
        have numbered := cmpLfn_numbered agrees
        have low : (dir 0).toNat &&& 0xBF ≠ 0 := by
          intro zero
          apply numbered
          rw [show 0x3F = 0xBF &&& 0x3F from rfl, ← Nat.and_assoc, zero, Nat.zero_and]
        exact .last long start (by omega) chk agrees
      · exact absurd rfl some'
  · rw [if_neg within]
    have within' := Decidable.not_not.mp within
    constructor
    · intro agreeing
      cases agreeing with
      | last _ yes => exact absurd within' yes
      | more _ _ number chk same earlier =>
        obtain ⟨some', ord, chk'⟩ := (expects sum (m + 1)).mp earlier
        rw [if_pos ⟨number.trans ord.symm, chk'.trans chk.symm, same⟩]
        refine ⟨?_, ?_, chk'⟩ <;> dsimp only <;> omega
    · rintro ⟨some', same, chk⟩
      dsimp only at some' same chk
      split at some'
      · rename_i agrees
        rw [if_pos agrees] at same
        obtain ⟨ord, chk', cmp⟩ := agrees
        have some'' := long.1
        have number : (dir 0).toNat = m + 1 := by omega
        refine .more long within' number (chk'.symm.trans chk) cmp ?_
        apply (expects sum (m + 1)).mpr
        refine ⟨?_, ord.symm.trans number, chk⟩
        intro last
        rw [ord, last] at within'
        cases within'
      · exact absurd rfl some'

theorem Expects.complete {seq : Nat × Nat} (expects : Expects lfnbuf before seq) :
    Agreeing lfnbuf sum 0 before ↔ seq.1 = 0 ∧ seq.2 = sum := by
  rw [expects sum 0]
  constructor
  · rintro ⟨-, both⟩
    exact both
  · rintro ⟨ord, chk⟩
    refine ⟨?_, ord, chk⟩
    rw [ord]
    decide

theorem look_tracks (flag : nsflag &&& 0x40 = 0) :
    Tracks (look lfnbuf fn nsflag) (Expects lfnbuf) Dirent.End
      (Named lfnbuf fn nsflag) := by
  have named : ∀ {before seq dir}, Expects lfnbuf before seq → dir.Short →
      (Named lfnbuf fn nsflag before dir ↔ seq.1 = 0 ∧ seq.2 = (sumSfn dir).toNat ∨
        nsflag &&& 0x01 = 0 ∧ window dir 0 11 = fn) := by
    intro before seq dir expects short
    unfold Named
    rw [expects.complete]
    exact and_iff_right short
  constructor
  · intro before seq dir expects looked
    apply Decidable.byContradiction
    intro goes
    rcases Decidable.em dir.Long with long | other
    · rw [look_long flag long] at looked
      cases looked
    · rcases Decidable.em dir.Short with short | unlike
      · rw [look_short short] at looked
        split at looked <;> cases looked
      · rw [look_other goes other unlike] at looked
        cases looked
  · intro before seq dir expects looked
    rcases Decidable.em dir.Short with short | unlike
    · rw [look_short short] at looked
      split at looked
      · rename_i fits
        exact ⟨short.1, (named expects short).mpr fits⟩
      · cases looked
    · rcases Decidable.em dir.End with stop | goes
      · rw [look_end stop] at looked
        cases looked
      · rcases Decidable.em dir.Long with long | other
        · rw [look_long flag long] at looked
          cases looked
        · rw [look_other goes other unlike] at looked
          cases looked
  · intro before seq dir seq' expects looked
    rcases Decidable.em dir.End with stop | goes
    · rw [look_end stop] at looked
      cases looked
    · refine ⟨goes, ?_⟩
      rcases Decidable.em dir.Short with short | unlike
      · rw [look_short short] at looked
        split at looked
        · cases looked
        · rename_i apart
          cases looked
          exact ⟨fun fits => apart ((named expects short).mp fits), .reset short.not_long rfl⟩
      · refine ⟨fun fits => unlike fits.1, ?_⟩
        rcases Decidable.em dir.Long with long | other
        · rw [look_long flag long] at looked
          cases looked
          exact expects.long long
        · rw [look_other goes other unlike] at looked
          cases looked
          exact .reset other rfl

theorem expects_start : Expects lfnbuf [] (0xFF, 0xFF) := by
  intro sum m
  constructor
  · intro agreeing
    cases agreeing
  · rintro ⟨some', -⟩
    exact absurd rfl some'

theorem search_first (flag : nsflag &&& 0x40 = 0) {es : List Dirent} {i : Nat} :
    scan (look lfnbuf fn nsflag) (0xFF, 0xFF) es = some i ↔
      First Dirent.End (Named lfnbuf fn nsflag) [] es i :=
  scan_first (look_tracks flag) expects_start

end Sequence

/-- The characters of the last part of a name: the name ends with them, or ends within and the rest is
filled. -/
def Ends (cs t : List Nat) : Prop :=
  (∀ c ∈ t, c ≠ 0) ∧ (cs = t ∨ ∃ fill, cs = t ++ 0 :: fill ∧ ∀ c ∈ fill, c = 0xFFFF)

/-- The entries passed, the last of them first, end with parts that spell `t`, the characters of a
name from the first `m` parts on. -/
inductive Spelled (sum : Nat) : Nat → List Dirent → List Nat → Prop where
  | last {m : Nat} {dir : Dirent} {before : List Dirent} {t : List Nat} : dir.Long → m < 63 →
      (dir 0).toNat = 0x40 + (m + 1) → (dir 13).toNat = sum → ldWord dir 26 = 0 →
      Ends dir.chars t → Spelled sum m (dir :: before) t
  | more {m : Nat} {dir : Dirent} {before : List Dirent} {t : List Nat} : dir.Long → m < 63 →
      (dir 0).toNat = m + 1 → (dir 13).toNat = sum → ldWord dir 26 = 0 →
      Spelled sum (m + 1) before t → Spelled sum m (dir :: before) (dir.chars ++ t)

/-- A name does not end within a part that is not its last. -/
def Tidy (es : List Dirent) : Prop :=
  ∀ dir ∈ es, dir.Long → (dir 0).toNat &&& 0x40 = 0 → ∀ c ∈ dir.chars, c ≠ 0

instance (es : List Dirent) : Decidable (Tidy es) :=
  inferInstanceAs (Decidable (∀ dir ∈ es, _ → _ → ∀ c ∈ dir.chars, _))

section Spelling

variable {lfnbuf : Nat → Nat} {sum m i wc : Nat} {before : List Dirent}
  {dir : Dirent} {t cs rest : List Nat}

/-- The characters are those of the buffer from `i` on, in either case. -/
def Alike (lfnbuf : Nat → Nat) (i : Nat) (t : List Nat) : Prop :=
  ∀ k c, t[k]? = some c → i + k < 256 ∧ ffWtoupper c = ffWtoupper (lfnbuf (i + k))

/-- And the buffer ends with them. -/
def Agree (lfnbuf : Nat → Nat) (i : Nat) (t : List Nat) : Prop :=
  Alike lfnbuf i t ∧ i + t.length < 256 ∧ lfnbuf (i + t.length) = 0

theorem alike_cons {c : Nat} : Alike lfnbuf i (c :: t) ↔
    (i < 256 ∧ ffWtoupper c = ffWtoupper (lfnbuf i)) ∧ Alike lfnbuf (i + 1) t := by
  constructor
  · intro all
    refine ⟨all 0 c rfl, fun k c' get => ?_⟩
    have later := all (k + 1) c' get
    rwa [← Nat.add_assoc, Nat.add_right_comm] at later
  · rintro ⟨first, all⟩ k c' get
    cases k with
    | zero =>
      cases get
      exact first
    | succ k =>
      have later := all k c' get
      rwa [Nat.add_right_comm] at later

theorem alike_append : Alike lfnbuf i (cs ++ t) ↔
    Alike lfnbuf i cs ∧ Alike lfnbuf (i + cs.length) t := by
  induction cs generalizing i with
  | nil => exact ⟨fun all => ⟨fun k c get => absurd get (by simp), all⟩, fun both => both.2⟩
  | cons c cs ih =>
    rw [List.cons_append, alike_cons, alike_cons, ih, List.length_cons, Nat.add_right_comm,
      Nat.add_assoc]
    exact and_assoc.symm

theorem cmpChars_run (rest : List Nat) (some' : wc ≠ 0) (chars : ∀ c ∈ t, c ≠ 0)
    (alike : Alike lfnbuf i t) :
    ∃ wc', wc' ≠ 0 ∧ cmpChars lfnbuf (t ++ rest) wc i =
      cmpChars lfnbuf rest wc' (i + t.length) := by
  induction t generalizing wc i with
  | nil => exact ⟨wc, some', rfl⟩
  | cons c t ih =>
    obtain ⟨⟨inside, same⟩, later⟩ := alike_cons.mp alike
    obtain ⟨wc', unlike, run⟩ :=
      ih (chars c List.mem_cons_self) (fun c' mem => chars c' (.tail _ mem)) later
    refine ⟨wc', unlike, ?_⟩
    have goes : ¬ (i ≥ 256 ∨ ffWtoupper c ≠ ffWtoupper (lfnbuf i)) := by
      rintro (beyond | other)
      · exact absurd inside (Nat.not_lt.mpr beyond)
      · exact other same
    rw [List.cons_append, cmpChars, if_pos some', if_neg goes, run, List.length_cons,
      Nat.add_right_comm, Nat.add_assoc]

theorem cmpChars_stops (rest : List Nat) (some' : wc ≠ 0) (chars : ∀ c ∈ t, c ≠ 0)
    (apart : ¬ Alike lfnbuf i t) :
    cmpChars lfnbuf (t ++ rest) wc i = none := by
  induction t generalizing wc i with
  | nil => exact absurd (fun k c get => absurd get (by simp)) apart
  | cons c t ih =>
    rw [List.cons_append, cmpChars, if_pos some']
    split
    · rfl
    · rename_i goes
      apply ih (chars c List.mem_cons_self) fun c' mem => chars c' (.tail _ mem)
      intro later
      refine apart (alike_cons.mpr ⟨⟨?_, ?_⟩, later⟩)
      · exact Nat.lt_of_not_le fun beyond => goes (.inl beyond)
      · exact Decidable.byContradiction fun other => goes (.inr other)

theorem cmpChars_fill (i : Nat) :
    cmpChars lfnbuf rest 0 i = if ∀ c ∈ rest, c = 0xFFFF then some (0, i) else none := by
  induction rest with
  | nil => exact (if_pos fun c no => absurd no List.not_mem_nil).symm
  | cons c rest ih =>
    rw [cmpChars, if_neg (fun unlike => unlike rfl), ih]
    rcases Decidable.em (c = 0xFFFF) with fill | other
    · rw [if_neg (fun unlike => unlike fill)]
      apply if_congr _ rfl rfl
      rw [List.forall_mem_cons]
      exact (and_iff_right fill).symm
    · rw [if_pos other, if_neg (fun all => other (all c List.mem_cons_self))]

theorem cmpChars_cut (some' : wc ≠ 0) (chars : ∀ c ∈ t, c ≠ 0) (filled : ∀ c ∈ rest, c = 0xFFFF)
    (agree : Agree lfnbuf i t) :
    cmpChars lfnbuf (t ++ 0 :: rest) wc i = some (0, i + t.length + 1) := by
  obtain ⟨alike, inside, ended⟩ := agree
  obtain ⟨wc', unlike, run⟩ := cmpChars_run (0 :: rest) some' chars alike
  have goes : ¬ (i + t.length ≥ 256 ∨ ffWtoupper 0 ≠ ffWtoupper (lfnbuf (i + t.length))) := by
    rintro (beyond | other)
    · omega
    · exact other (congrArg ffWtoupper ended.symm)
  rw [run, cmpChars, if_pos unlike, if_neg goes, cmpChars_fill, if_pos filled]

theorem cmpChars_uncut (some' : wc ≠ 0)
    (chars : ∀ c ∈ t, c ≠ 0) (apart : ¬ ((∀ c ∈ rest, c = 0xFFFF) ∧ Agree lfnbuf i t)) :
    cmpChars lfnbuf (t ++ 0 :: rest) wc i = none := by
  by_cases alike : Alike lfnbuf i t
  · obtain ⟨wc', unlike, run⟩ := cmpChars_run (0 :: rest) some' chars alike
    rw [run, cmpChars, if_pos unlike]
    split
    · rfl
    · rename_i goes
      obtain ⟨inside, same⟩ := not_or.mp goes
      have ended := ffWtoupper_zero (Decidable.not_not.mp same).symm
      rw [cmpChars_fill, if_neg]
      intro filled
      exact apart ⟨filled, alike, Nat.lt_of_not_le inside, ended⟩
  · exact cmpChars_stops (0 :: rest) some' chars alike

theorem zero_within (cs : List Nat) :
    (∀ c ∈ cs, c ≠ 0) ∨ ∃ t rest, cs = t ++ 0 :: rest ∧ ∀ c ∈ t, c ≠ 0 := by
  induction cs with
  | nil => exact .inl fun c no => absurd no List.not_mem_nil
  | cons c cs ih =>
    rcases Decidable.em (c = 0) with rfl | some'
    · exact .inr ⟨[], cs, rfl, fun c no => absurd no List.not_mem_nil⟩
    · rcases ih with all | ⟨t, rest, rfl, all⟩
      · exact .inl (List.forall_mem_cons.mpr ⟨some', all⟩)
      · exact .inr ⟨c :: t, rest, rfl, List.forall_mem_cons.mpr ⟨some', all⟩⟩

theorem cmpLfn_iff (number : (dir 0).toNat &&& 0x3F = m + 1) : cmpLfn lfnbuf dir = true ↔
    ldWord dir 26 = 0 ∧ ∃ wc j, cmpChars lfnbuf dir.chars 1 (13 * m) = some (wc, j) ∧
      ((dir 0).toNat &&& 0x40 = 0 ∨ wc = 0 ∨ lfnbuf j = 0) := by
  have place : (m + 1) * 13 - 13 = 13 * m := by omega
  rw [cmpLfn, number, if_neg (Nat.succ_ne_zero m), place]
  rcases Decidable.em (ldWord dir 26 = 0) with zero | other
  · rw [if_neg (fun unlike => unlike zero)]
    dsimp only
    rw [and_iff_right zero]
    split
    · rename_i none'
      refine ⟨fun no => absurd no Bool.false_ne_true, ?_⟩
      rintro ⟨wc, j, some', -⟩
      cases none'.symm.trans some'
    · rename_i wc j some'
      rw [Bool.not_eq_true', decide_eq_false_iff_not]
      generalize (dir 0).toNat &&& 0x40 = flag
      constructor
      · intro apart
        exact ⟨wc, j, some', by omega⟩
      · rintro ⟨wc', j', same, either⟩
        cases some'.symm.trans same
        omega
  · rw [if_pos other]
    exact ⟨fun no => absurd no Bool.false_ne_true, fun both => absurd both.1 other⟩

theorem cmpLfn_more (number : (dir 0).toNat &&& 0x3F = m + 1) (within : (dir 0).toNat &&& 0x40 = 0)
    (chars : ∀ c ∈ dir.chars, c ≠ 0) :
    cmpLfn lfnbuf dir = true ↔ ldWord dir 26 = 0 ∧ Alike lfnbuf (13 * m) dir.chars := by
  rw [cmpLfn_iff number]
  apply and_congr_right
  intro _
  have whole : dir.chars = dir.chars ++ [] := (List.append_nil _).symm
  constructor
  · rintro ⟨wc, j, some', -⟩
    by_contra apart
    rw [whole, cmpChars_stops [] Nat.one_ne_zero chars apart] at some'
    cases some'
  · intro alike
    obtain ⟨wc, -, run⟩ := cmpChars_run [] Nat.one_ne_zero chars alike
    rw [whole, run]
    exact ⟨wc, _, rfl, .inl within⟩

theorem Dirent.chars_length (dir : Dirent) : dir.chars.length = 13 := List.length_map _

theorem cmpLfn_last
    (number : (dir 0).toNat &&& 0x3F = m + 1) (start : (dir 0).toNat &&& 0x40 ≠ 0) :
    cmpLfn lfnbuf dir = true ↔
      ldWord dir 26 = 0 ∧ ∃ t, Ends dir.chars t ∧ Agree lfnbuf (13 * m) t := by
  rw [cmpLfn_iff number]
  apply and_congr_right
  intro _
  have length := dir.chars_length
  constructor
  · rintro ⟨wc, j, some', ended⟩
    rcases zero_within dir.chars with all | ⟨t, rest, split', all⟩
    · by_cases alike : Alike lfnbuf (13 * m) dir.chars
      · obtain ⟨wc', unlike, run⟩ := cmpChars_run [] Nat.one_ne_zero all alike
        rw [List.append_nil, some'] at run
        cases run
        have last := (alike 12 _ (List.getElem?_eq_getElem (by omega))).1
        refine ⟨_, ⟨all, .inl rfl⟩, alike, by omega, ?_⟩
        exact (ended.resolve_left start).resolve_left unlike
      · have none' := cmpChars_stops [] Nat.one_ne_zero all alike
        rw [List.append_nil, some'] at none'
        cases none'
    · by_cases agree : (∀ c ∈ rest, c = 0xFFFF) ∧ Agree lfnbuf (13 * m) t
      · exact ⟨t, ⟨all, .inr ⟨rest, split', agree.1⟩⟩, agree.2⟩
      · rw [split', cmpChars_uncut Nat.one_ne_zero all agree] at some'
        cases some'
  · rintro ⟨t, ⟨all, rfl | ⟨rest, split', filled⟩⟩, agree⟩
    · obtain ⟨wc, -, run⟩ := cmpChars_run [] Nat.one_ne_zero all agree.1
      rw [List.append_nil] at run
      exact ⟨wc, _, run, .inr (.inr agree.2.2)⟩
    · rw [split', cmpChars_cut Nat.one_ne_zero all filled agree]
      exact ⟨0, _, rfl, .inr (.inl rfl)⟩

theorem last_number : ∀ c < 256, c &&& 0x40 ≠ 0 → c &&& 0xBF ≤ 64 →
    c = 0x40 + (c &&& 0xBF) ∧ c &&& 0x3F = c &&& 0xBF ∧ c &&& 0xBF < 64 := by decide +kernel

theorem more_number : ∀ c < 256, c &&& 0x40 = 0 → c ≤ 64 → c &&& 0x3F = c ∧ c < 64 := by
  decide +kernel

theorem numbered : ∀ m < 63, (0x40 + (m + 1)) &&& 0x40 ≠ 0 ∧ (0x40 + (m + 1)) &&& 0xBF = m + 1 ∧
    (0x40 + (m + 1)) &&& 0x3F = m + 1 ∧ (m + 1) &&& 0x40 = 0 ∧ (m + 1) &&& 0x3F = m + 1 := by
  decide +kernel

theorem agree_append : Agree lfnbuf i (cs ++ t) ↔
    Alike lfnbuf i cs ∧ Agree lfnbuf (i + cs.length) t := by
  unfold Agree
  rw [alike_append, List.length_append, ← Nat.add_assoc, and_assoc]

/-- What agrees with the buffer is what is spelled and agrees with the buffer. -/
theorem agreeing_spelled (tidy : Tidy before)
    (few : m ≤ 63) : Agreeing lfnbuf sum m before ↔
      ∃ t, Spelled sum m before t ∧ Agree lfnbuf (13 * m) t := by
  induction before generalizing m with
  | nil =>
    constructor
    · intro agreeing
      cases agreeing
    · rintro ⟨t, spelled, -⟩
      cases spelled
  | cons dir before ih =>
    have byte := (dir 0).toNat_lt
    have tidy' : Tidy before := fun e mem => tidy e (.tail _ mem)
    have part : 13 * m + dir.chars.length = 13 * (m + 1) := by rw [dir.chars_length, Nat.mul_succ]
    constructor
    · intro agreeing
      cases agreeing with
      | last long start number chk same =>
        obtain ⟨whole, low, small⟩ := last_number _ byte start (by omega)
        obtain ⟨must, t, ends, agree⟩ := (cmpLfn_last (low.trans number) start).mp same
        exact ⟨t, .last long (by omega) (number ▸ whole) chk must ends, agree⟩
      | more long within number chk same earlier =>
        obtain ⟨low, small⟩ := more_number _ byte within (by omega)
        have chars := tidy dir List.mem_cons_self long within
        obtain ⟨must, alike⟩ := (cmpLfn_more (low.trans number) within chars).mp same
        obtain ⟨t, spelled, agree⟩ := (ih tidy' (by omega)).mp earlier
        refine ⟨_, .more long (by omega) number chk must spelled, agree_append.mpr ⟨alike, ?_⟩⟩
        rw [part]
        exact agree
    · rintro ⟨t, spelled, agree⟩
      cases spelled with
      | last long small number chk must ends =>
        obtain ⟨start, low, low', -⟩ := numbered m small
        rw [← number] at start low low'
        exact .last long start low chk ((cmpLfn_last low' start).mpr ⟨must, t, ends, agree⟩)
      | more long small number chk must spelled =>
        obtain ⟨-, -, -, within, low⟩ := numbered m small
        rw [← number] at within
        have low' : (dir 0).toNat &&& 0x3F = m + 1 := by
          rw [number]
          exact low
        obtain ⟨alike, agree⟩ := agree_append.mp agree
        rw [part] at agree
        have chars := tidy dir List.mem_cons_self long within
        exact .more long within number chk ((cmpLfn_more low' within chars).mpr ⟨must, alike⟩)
          ((ih tidy' (by omega)).mpr ⟨_, spelled, agree⟩)

theorem Spelled.chars (tidy : Tidy before) (spelled : Spelled sum m before t) : ∀ c ∈ t, c ≠ 0 := by
  induction spelled with
  | last _ _ _ _ _ ends => exact ends.1
  | @more m dir before t long small number _ _ _ ih =>
    obtain ⟨-, -, -, within, -⟩ := numbered m small
    rw [← number] at within
    intro c among
    rcases List.mem_append.mp among with here | later
    · exact tidy dir List.mem_cons_self long within c here
    · exact ih (fun e mem => tidy e (.tail _ mem)) c later

structure Holds (lfnbuf : Nat → Nat) (name : List Nat) : Prop where
  chars : ∀ k c, name[k]? = some c → lfnbuf k = c ∧ c ≠ 0
  ended : lfnbuf name.length = 0
  short : name.length < 256

theorem Holds.agree {name : List Nat}
    (holds : Holds lfnbuf name) (chars : ∀ c ∈ t, c ≠ 0) :
    Agree lfnbuf 0 t ↔ t.map ffWtoupper = name.map ffWtoupper := by
  constructor
  · rintro ⟨alike, inside, ended⟩
    rw [Nat.zero_add] at inside ended
    have length : t.length = name.length := by
      rcases Nat.lt_trichotomy t.length name.length with less | same | more
      · have held := holds.chars _ _ (List.getElem?_eq_getElem less)
        exact absurd (held.1.symm.trans ended) held.2
      · exact same
      · have get := List.getElem?_eq_getElem more
        have like := (alike _ _ get).2
        rw [Nat.zero_add, holds.ended] at like
        exact absurd (ffWtoupper_zero like) (chars _ (List.getElem_mem more))
    apply List.ext_getElem?
    intro k
    rw [List.getElem?_map, List.getElem?_map]
    rcases Nat.lt_or_ge k t.length with low | high
    · have get := List.getElem?_eq_getElem low
      have get' := List.getElem?_eq_getElem (length ▸ low)
      have like := (alike _ _ get).2
      rw [Nat.zero_add, (holds.chars _ _ get').1] at like
      rw [get, get']
      exact congrArg some like
    · rw [List.getElem?_eq_none high, List.getElem?_eq_none (length ▸ high)]
  · intro same
    have length : t.length = name.length := by
      rw [← List.length_map ffWtoupper, same, List.length_map]
    refine ⟨fun k c get => ?_, ?_, ?_⟩
    · obtain ⟨low, -⟩ := List.getElem?_eq_some_iff.mp get
      have get' := List.getElem?_eq_getElem (length ▸ low)
      have like := congrArg (fun l => l[k]?) same
      rw [List.getElem?_map, List.getElem?_map, get, get'] at like
      rw [Nat.zero_add, (holds.chars _ _ get').1]
      have short := holds.short
      exact ⟨by omega, Option.some.inj like⟩
    · rw [Nat.zero_add, length]
      exact holds.short
    · rw [Nat.zero_add, length]
      exact holds.ended

/-- The long name of a file, in front of which the entries lie that have been passed. -/
def LongName (before : List Dirent) (dir : Dirent) (t : List Nat) : Prop :=
  Spelled (sumSfn dir).toNat 0 before t

/-- The file is called so: its long name is the one looked for, in either case, or its short name is
the one that has been made of it without a loss. -/
def Called (name : List Nat) (fn : List Byte) (nsflag : Nat) (before : List Dirent)
    (dir : Dirent) : Prop :=
  dir.Short ∧ ((∃ t, LongName before dir t ∧ t.map ffWtoupper = name.map ffWtoupper) ∨
    nsflag &&& 0x01 = 0 ∧ window dir 0 11 = fn)

theorem named_iff {fn : List Byte} {nsflag : Nat} {name : List Nat} (tidy : Tidy before)
    (holds : Holds lfnbuf name) :
    Named lfnbuf fn nsflag before dir ↔ Called name fn nsflag before dir := by
  unfold Named Called LongName
  rw [agreeing_spelled tidy (Nat.zero_le 63)]
  apply and_congr_right
  intro _
  apply or_congr_left
  constructor
  · rintro ⟨t, spelled, agree⟩
    exact ⟨t, spelled, (holds.agree (spelled.chars tidy)).mp agree⟩
  · rintro ⟨t, spelled, same⟩
    exact ⟨t, spelled, (holds.agree (spelled.chars tidy)).mpr same⟩

theorem search_called {fn : List Byte} {nsflag : Nat} {name : List Nat} {es : List Dirent} {i : Nat}
    (flag : nsflag &&& 0x40 = 0) (tidy : Tidy es) (holds : Holds lfnbuf name) :
    scan (look lfnbuf fn nsflag) (0xFF, 0xFF) es = some i ↔
      First Dirent.End (Called name fn nsflag) [] es i := by
  rw [search_first flag]
  apply first_congr
  intro j dir _
  apply named_iff _ holds
  intro e mem
  rw [List.append_nil, List.mem_reverse] at mem
  exact tidy e (List.mem_of_mem_take mem)

end Spelling

end MultiZone.Fat
