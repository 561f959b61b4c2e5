import MultiZone.Boot.Model

/-! Where the boot loop writes: every byte that f_load stores for an image is a
byte of its own file, at its own place in the image's region. -/
namespace MultiZone.Boot
open Memory

theorem prog_apart {fw fw' : Image} (ne : fw ≠ fw') : fw.prog.Apart fw'.prog := by
  cases fw <;> cases fw' <;> first | exact absurd rfl ne | decide

theorem boot_apart (fw : Image) : bootProg.Apart fw.prog ∧ bootData.Apart fw.prog := by
  cases fw <;> decide

/-- f_load reads the file: it is there, is not empty, fits, and is not zone 1's. -/
def Fits (fw : Image) (file : File) : Prop :=
  file.opened = .ok ∧ 0 < fSize file ∧ fSize file ≤ fw.loadSize ∧ fw ≠ .zone1

instance (fw : Image) (file : File) : Decidable (Fits fw file) :=
  inferInstanceAs (Decidable (_ ∧ _))

/-- The bytes that f_load has f_read store. -/
def File.delivered (file : File) : List Byte := (fRead file (fSize file)).2

theorem delivered_eq (file : File) : file.delivered =
    file.contents.take (if file.read = .ok then fSize file else file.stored) := by
  simp [File.delivered, fRead, fSize]

theorem delivered_contents {file : File} {i : Nat} {b : Byte} (h : file.delivered[i]? = some b) :
    file.contents[i]? = some b := by
  rw [delivered_eq] at h
  generalize (if file.read = .ok then fSize file else file.stored) = n at h
  rw [List.getElem?_take] at h
  split at h
  · exact h
  · cases h

theorem fileName_zone1 (fw : Image) : fw.fileName ≠ Image.zone1.fileName ↔ fw ≠ .zone1 := by
  cases fw <;> decide

theorem fLoad_cases (fw : Image) (file : File) (s : Loader) :
    Fits fw file ∧ fLoad fw file s = (file.read, s.store fw file.delivered) ∨
    ¬ Fits fw file ∧ fLoad fw file s = (file.opened, s) := by
  unfold fLoad Fits
  cases opened : file.opened with
  | error => exact .inr ⟨by simp, rfl⟩
  | ok =>
    by_cases size : fSize file > 0 ∧ fSize file ≤ fw.loadSize
    · by_cases zone1 : fw = .zone1
      · right
        subst zone1
        exact ⟨by simp, by simp [size]⟩
      · left
        refine ⟨⟨rfl, size.1, size.2, zone1⟩, ?_⟩
        rw [if_pos size, if_pos ((fileName_zone1 fw).mpr zone1)]
        rfl
    · right
      refine ⟨fun fits => size ⟨fits.2.1, fits.2.2.1⟩, ?_⟩
      simp only [size, if_false]

def load (volume : Volume) (s : Loader) (fw : Image) : Loader := (fLoad fw (volume fw) s).2

/-- The loop has taken up some of the images, in their order, when it is left. -/
theorem bootLoop_loads (card : Card) (fws : List Image) (s : Loader) :
    ∃ before, before <+: fws ∧ (bootLoop card fws s).2 = before.foldl (load card.volume) s := by
  induction fws generalizing s with
  | nil => exact ⟨[], List.nil_prefix, rfl⟩
  | cons fw rest ih =>
    have one : ∃ before, before <+: fw :: rest ∧
        load card.volume s fw = before.foldl (load card.volume) s :=
      ⟨[fw], by simp, rfl⟩
    have more : ∃ before, before <+: fw :: rest ∧
        (bootLoop card rest (load card.volume s fw)).2 =
          before.foldl (load card.volume) s := by
      obtain ⟨before, isPrefix, eq⟩ := ih (load card.volume s fw)
      exact ⟨fw :: before, List.cons_prefix_cons.mpr ⟨rfl, isPrefix⟩, eq⟩
    unfold load at one more
    unfold bootLoop
    rcases hl : fLoad fw (card.volume fw) s with ⟨result, t⟩
    rw [hl] at one more
    cases result with
    | ok =>
      dsimp only
      split
      · exact more
      · exact one
    | error =>
      dsimp only
      split
      · split
        · exact one
        · exact one
      · exact more

/-- Every store so far was made for an image that f_load reads, from the start of
its region on, with bytes of its file. -/
structure Confined (volume : Volume) (mem : Nat → Byte) (s : Loader) : Prop where
  replayed : s.mem = replay mem s.log
  fits : ∀ st ∈ s.log, Fits st.tag (volume st.tag)
  addr : ∀ st ∈ s.log, st.addr = st.tag.prog.base
  bytes : ∀ st ∈ s.log, ∀ (i : Nat) b, st.values[i]? = some b → (volume st.tag).contents[i]? = some b

theorem confined_load {volume : Volume} {mem : Nat → Byte} {s : Loader} (fw : Image)
    (h : Confined volume mem s) : Confined volume mem (load volume s fw) := by
  unfold load
  rcases fLoad_cases fw (volume fw) s with ⟨fits, eq⟩ | ⟨-, eq⟩
  · rw [eq]
    refine ⟨?_, ?_, ?_, ?_⟩
    · change Memory.store s.mem _ _ = replay mem (s.log ++ _)
      rw [replay_append, h.replayed]
      rfl
    all_goals
      intro st hst
      rcases List.mem_append.mp hst with old | new
    · exact h.fits st old
    · exact List.mem_singleton.mp new ▸ fits
    · exact h.addr st old
    · exact List.mem_singleton.mp new ▸ rfl
    · exact h.bytes st old
    · obtain rfl := List.mem_singleton.mp new
      intro i b hb
      exact delivered_contents hb
  · rw [eq]
    exact h

theorem confined_loads {volume : Volume} {mem : Nat → Byte} {s : Loader} (fws : List Image)
    (h : Confined volume mem s) : Confined volume mem (fws.foldl (load volume) s) := by
  induction fws generalizing s with
  | nil => exact h
  | cons fw rest ih => exact ih (confined_load fw h)

theorem confined_e51 (bootMode : Nat) (card : Card) (mem : Nat → Byte) :
    Confined card.volume mem (e51 bootMode card mem).2 := by
  have start : Confined card.volume mem ⟨mem, []⟩ := ⟨rfl, nofun, nofun, nofun⟩
  unfold e51
  split
  · obtain ⟨before, -, eq⟩ := bootLoop_loads card (fwImage bootMode) ⟨mem, []⟩
    rw [eq]
    exact confined_loads before start
  · exact start

section Confined

variable {volume : Volume} {mem : Nat → Byte} {s : Loader}

theorem Confined.place (h : Confined volume mem s) {st : Store Image Byte} (hst : st ∈ s.log)
    {i : Nat} {b : Byte} (hb : st.values[i]? = some b) :
    st.tag.prog.Holds (st.addr + i) ∧
      (volume st.tag).contents[st.addr + i - st.tag.prog.base]? = some b := by
  have addr := h.addr st hst
  have contents := h.bytes st hst i b hb
  have inside := (List.getElem?_eq_some_iff.mp contents).1
  have fits : (volume st.tag).contents.length ≤ st.tag.prog.length := (h.fits st hst).2.2.1
  rw [addr, Nat.add_sub_cancel_left]
  refine ⟨⟨Nat.le_add_right _ _, ?_⟩, contents⟩
  omega

def Untouched (mem : Nat → Byte) (s : Loader) (a : Nat) : Prop :=
  (∀ st ∈ s.log, ¬ st.Touches a) ∧ s.mem a = mem a

theorem Confined.untouched (h : Confined volume mem s) {a : Nat}
    (never : ∀ st ∈ s.log, ¬ st.Touches a) : Untouched mem s a :=
  ⟨never, h.replayed ▸ replay_untouched never⟩

theorem Confined.outside (h : Confined volume mem s) {a : Nat}
    (out : ∀ fw : Image, ¬ fw.prog.Holds a) : Untouched mem s a := by
  apply h.untouched
  intro st hst ⟨i, b, hb, ha⟩
  exact out st.tag (ha ▸ (h.place hst hb).1)

theorem Confined.inside (h : Confined volume mem s) {fw : Image} {a : Nat}
    (holds : fw.prog.Holds a)
    (spare : Fits fw (volume fw) → fw.prog.base + fSize (volume fw) ≤ a) : Untouched mem s a := by
  apply h.untouched
  intro st hst ⟨i, b, hb, ha⟩
  by_cases own : st.tag = fw
  case neg => exact (prog_apart own).outside (ha ▸ (h.place hst hb).1) holds
  have contents := h.bytes st hst i b hb
  have within : i < fSize (volume st.tag) := (List.getElem?_eq_some_iff.mp contents).1
  have addr := h.addr st hst
  have fits := h.fits st hst
  rw [own] at within addr fits
  have beyond := spare fits
  omega

end Confined

/-- Whatever is on the volume and whichever calls fail, an image is written only
inside its own region and from its own file, and nothing else is written. -/
theorem loading_confined (bootMode : Nat) (card : Card) (mem : Nat → Byte) :
    let s := (e51 bootMode card mem).2
    s.mem = replay mem s.log ∧
    (∀ st ∈ s.log, ∀ (i : Nat) b, st.values[i]? = some b → st.tag.prog.Holds (st.addr + i) ∧
      (card.volume st.tag).contents[st.addr + i - st.tag.prog.base]? = some b) ∧
    (∀ fw : Image, ∀ a, fw.prog.Holds a → fw.prog.base + fSize (card.volume fw) ≤ a →
      Untouched mem s a) ∧
    (∀ fw : Image, fSize (card.volume fw) = 0 ∨ fSize (card.volume fw) > fw.loadSize ∨
      fw = .zone1 → ∀ a, fw.prog.Holds a → Untouched mem s a) ∧
    ∀ a, (∀ fw : Image, ¬ fw.prog.Holds a) → Untouched mem s a := by
  have h := confined_e51 bootMode card mem
  refine ⟨h.replayed, fun st hst i b => h.place hst, ?_, ?_, fun a => h.outside⟩
  · intro fw a holds beyond
    exact h.inside holds fun _ => beyond
  · intro fw excluded a holds
    apply h.inside holds
    rintro ⟨-, nonempty, small, other⟩
    rcases excluded with empty | big | zone1
    · omega
    · omega
    · exact absurd zone1 other

/-- The boot loader's own program and data are outside of all regions. -/
theorem boot_untouched (bootMode : Nat) (card : Card) (mem : Nat → Byte) {a : Nat}
    (own : bootProg.Holds a ∨ bootData.Holds a) :
    Untouched mem (e51 bootMode card mem).2 a := by
  apply (confined_e51 bootMode card mem).outside
  intro fw
  rcases own with prog | data
  · exact (boot_apart fw).1.outside prog
  · exact (boot_apart fw).2.outside data

end MultiZone.Boot
