import MultiZone.Fat.Entries
import MultiZone.Memory.Cursor

/-! f_read gives the bytes of the file one after the other, in whatever pieces it is asked for
them, and whatever the card does. -/
namespace MultiZone.Fat
open Memory

/-- The clusters of a file, linked in the FAT, are enough for its size. -/
structure Chain (d : Drive) (v : Volume) (obj : Obj) (cs : List Nat) : Prop where
  first : ∀ c, cs[0]? = some c → c = obj.sclust
  linked : ∀ i c c', cs[i]? = some c → cs[i + 1]? = some c' → entry d v obj c = c'
  valid : ∀ c ∈ cs, 2 ≤ c ∧ c < v.nFatent
  room : obj.objsize ≤ 512 * v.csize * cs.length

def place (v : Volume) (cs : List Nat) (p : Nat) : Nat :=
  512 * (v.database + v.csize * (cs.getD (p / (512 * v.csize)) 0 - 2)) + p % (512 * v.csize)

def content (d : Drive) (v : Volume) (cs : List Nat) (p : Nat) : Byte := d.bytes (place v cs p)

/-- The cluster of the last byte that has been read is at hand, and its sector where bytes of
it are left. -/
structure Placed (d : Drive) (v : Volume) (cs : List Nat) (fp : Fil) : Prop where
  clust : 0 < fp.fptr → cs[(fp.fptr - 1) / (512 * v.csize)]? = some fp.clust
  cached : fp.sect ≠ 0 → ∀ o < 512, fp.buf o = d.bytes (512 * fp.sect + o)
  current : fp.fptr % 512 ≠ 0 → fp.sect = place v cs fp.fptr / 512

section Places

variable {d : Drive} {v : Volume} {cs : List Nat} {p n : Nat}

theorem Volume.Sound.csize_le (sound : v.Sound) : v.csize ≤ 2 ^ 15 := by
  obtain ⟨k, small, pow⟩ := sound.csize_pow
  rw [pow]
  exact Nat.pow_le_pow_right (by decide) small

theorem Volume.Sound.csize_pos (sound : v.Sound) : 0 < v.csize := by
  obtain ⟨k, -, pow⟩ := sound.csize_pow
  rw [pow]
  exact Nat.two_pow_pos k

theorem Volume.Sound.csect_eq (sound : v.Sound) : p / 512 &&& (v.csize - 1) = p / 512 % v.csize := by
  obtain ⟨k, -, pow⟩ := sound.csize_pow
  rw [pow, Nat.and_two_pow_sub_one_eq_mod]

theorem Volume.Sound.clst2sect_eq (sound : v.Sound) {c : Nat} (low : 2 ≤ c) (high : c < v.nFatent) :
    clst2sect v c = v.database + v.csize * (c - 2) := by
  have few := sound.nFatent_le
  have wrapped : (c + (2 ^ 32 - 2)) % 2 ^ 32 = c - 2 := by omega
  rw [clst2sect, wrapped, if_neg (by omega)]

/-- The bytes of a cluster lie side by side. -/
theorem place_add (inside : p % (512 * v.csize) + n < 512 * v.csize) :
    place v cs (p + n) = place v cs p + n := by
  have split := Nat.div_add_mod p (512 * v.csize)
  have cluster : (p + n) / (512 * v.csize) = p / (512 * v.csize) := by
    apply Nat.div_eq_of_lt_le
    · rw [Nat.mul_comm]
      omega
    · rw [Nat.mul_comm, Nat.mul_succ]
      omega
  have rest : (p + n) % (512 * v.csize) = p % (512 * v.csize) + n := by
    have split' := Nat.div_add_mod (p + n) (512 * v.csize)
    rw [cluster] at split'
    omega
  rw [place, place, cluster, rest, Nat.add_assoc]

theorem last_cluster (positive : 0 < n) (inside : p % (512 * v.csize) + n ≤ 512 * v.csize) :
    (p + n - 1) / (512 * v.csize) = p / (512 * v.csize) := by
  have split := Nat.div_add_mod p (512 * v.csize)
  apply Nat.div_eq_of_lt_le
  · rw [Nat.mul_comm]
    omega
  · rw [Nat.mul_comm, Nat.mul_succ]
    omega

theorem place_mod : place v cs p % 512 = p % 512 := by
  have inner := Nat.mod_mul_right_mod p 512 v.csize
  rw [place]
  omega

theorem cluster_rest : p % (512 * v.csize) = p % 512 + 512 * (p / 512 % v.csize) :=
  Nat.mod_mul

theorem sector_inside (sound : v.Sound) (inside : p % 512 + n ≤ 512) :
    p % (512 * v.csize) + n ≤ 512 * v.csize := by
  have below := Nat.mod_lt (p / 512) sound.csize_pos
  rw [cluster_rest]
  omega

theorem window_content (inside : p % (512 * v.csize) + n ≤ 512 * v.csize) :
    window (content d v cs) p n = window d.bytes (place v cs p) n := by
  apply List.map_congr_left
  intro i hi
  have short := List.mem_range.mp hi
  rw [content, place_add (by omega)]

theorem place_sector (sound : v.Sound) {c : Nat} (clust : cs[p / (512 * v.csize)]? = some c)
    (low : 2 ≤ c) (high : c < v.nFatent) (start : p % 512 = 0) :
    place v cs p = 512 * (clst2sect v c + p / 512 % v.csize) := by
  have rest := cluster_rest (v := v) (p := p)
  rw [place, rest, List.getD_eq_getElem?_getD, clust, Option.getD_some,
    sound.clst2sect_eq low high]
  omega

theorem place_first (sound : v.Sound) {j c : Nat} (get : cs[j]? = some c) (low : 2 ≤ c)
    (high : c < v.nFatent) : place v cs (512 * v.csize * j) = 512 * clst2sect v c := by
  rw [place, Nat.mul_div_cancel_left _ (Nat.mul_pos (by decide) sound.csize_pos),
    List.getD_eq_getElem?_getD, get, Option.getD_some, Nat.mul_mod_right,
    sound.clst2sect_eq low high]
  rfl

theorem clst2sect_inside (sound : v.Sound) (fits : Fits d v) {c : Nat} (low : 2 ≤ c)
    (high : c < v.nFatent) : 0 < clst2sect v c ∧ clst2sect v c + v.csize ≤ d.sectors := by
  have first := sound.database_pos
  have data := fits.data
  have room : v.csize * (c - 2) + v.csize ≤ v.csize * (v.nFatent - 2) := by
    rw [← Nat.mul_succ]
    exact Nat.mul_le_mul_left _ (by omega)
  rw [sound.clst2sect_eq low high]
  omega

end Places

structure Round.Good (d : Drive) (v : Volume) (cs : List Nat) (fp : Fil) (btr : Nat)
    (r : Round) : Prop where
  valid : r.w.Valid d
  obj : r.fp.obj = fp.obj
  faRead : r.fp.faRead = fp.faRead
  result : (r.abort = none ∧ r.fp.err = fp.err ∧ Placed d v cs r.fp ∧
      ∃ n, 0 < n ∧ n ≤ btr ∧ r.stored = window (content d v cs) fp.fptr n ∧
        r.fp.fptr = fp.fptr + n) ∨
    ∃ e n, r.abort = some e ∧ e ≠ .ok ∧ Faulty d ∧ n ≤ btr ∧
      r.stored = window (content d v cs) fp.fptr n

section Rounds

variable {d : Drive} {v : Volume} {cs : List Nat} {fp : Fil} {w : Win} {btr : Nat}

theorem copyPart_good (fp : Fil) (sound : v.Sound) (valid : w.Valid d) (positive : 0 < btr)
    (clust : cs[fp.fptr / (512 * v.csize)]? = some fp.clust)
    (cached : ∀ o < 512, fp.buf o = d.bytes (512 * fp.sect + o))
    (current : fp.sect = place v cs fp.fptr / 512) :
    (copyPart w fp btr).Good d v cs fp btr := by
  have offset : place v cs fp.fptr % 512 = fp.fptr % 512 := place_mod
  have part : ∃ n, 0 < n ∧ n ≤ btr ∧ fp.fptr % 512 + n ≤ 512 ∧
      copyPart w fp btr = ⟨none, window fp.buf (fp.fptr % 512) n,
        { fp with fptr := fp.fptr + n }, w⟩ := by
    refine ⟨if 512 - fp.fptr % 512 > btr then btr else 512 - fp.fptr % 512, ?_, ?_, ?_, rfl⟩
    · split <;> omega
    · split <;> omega
    · split <;> omega
  obtain ⟨n, some', few, inside, same⟩ := part
  have within := sector_inside sound inside
  have bytes : window fp.buf (fp.fptr % 512) n = window (content d v cs) fp.fptr n := by
    rw [window_content within]
    apply List.map_congr_left
    intro i hi
    have short := List.mem_range.mp hi
    rw [cached _ (by omega), current]
    congr 1
    omega
  rw [same]
  refine ⟨valid, rfl, rfl, .inl ⟨rfl, rfl, ⟨?_, fun _ => cached, ?_⟩, n, some', few, bytes, rfl⟩⟩
  · intro _
    dsimp only
    rw [last_cluster some' within]
    exact clust
  · intro unfinished
    dsimp only at unfinished ⊢
    have strict : fp.fptr % 512 + (n + 1) ≤ 512 := by omega
    have within' := sector_inside sound strict
    rw [current, place_add (by omega)]
    omega

/-- Whole sectors go past the buffer of the object. -/
theorem readSector_whole (fp : Fil) (sound : v.Sound) (fits : Fits d v) (valid : w.Valid d)
    (whole : btr / 512 > 0) (start : fp.fptr % 512 = 0)
    (clust : cs[fp.fptr / (512 * v.csize)]? = some fp.clust)
    (low : 2 ≤ fp.clust) (high : fp.clust < v.nFatent)
    (cached : fp.sect ≠ 0 → ∀ o < 512, fp.buf o = d.bytes (512 * fp.sect + o)) :
    (readSector d v w fp (fp.fptr / 512 % v.csize) btr).Good d v cs fp btr := by
  obtain ⟨present, inside⟩ := clst2sect_inside sound fits low high
  have below := Nat.mod_lt (fp.fptr / 512) sound.csize_pos
  have small := sound.csize_le
  have rest := cluster_rest (v := v) (p := fp.fptr)
  have here := place_sector sound clust low high start
  unfold readSector
  generalize clst2sect v fp.clust = base at *
  generalize fp.fptr / 512 % v.csize = csect at *
  rw [if_neg (by omega)]
  dsimp only
  rw [if_pos whole]
  have part : ∃ cc, 0 < cc ∧ 512 * cc ≤ btr ∧ csect + cc ≤ v.csize ∧
      (if csect + btr / 512 > v.csize then v.csize - csect else btr / 512) = cc := by
    refine ⟨_, ?_, ?_, ?_, rfl⟩
    · split <;> omega
    · split <;> omega
    · split <;> omega
  obtain ⟨cc, some', few, short, same⟩ := part
  have within : fp.fptr % (512 * v.csize) + 512 * cc ≤ 512 * v.csize := by omega
  have bytes : window (content d v cs) fp.fptr (512 * cc) = _ := window_content within
  rw [here] at bytes
  have counted : cc ≤ mmcBlockCountMax := Nat.le_trans (by omega : cc ≤ 2 ^ 15) (by decide)
  have present' : base + csect + cc ≤ d.sectors := by omega
  rcases diskRead_cases (d := d) w.reads counted present' with
    read | ⟨k, read, faulty⟩
  · simp only [same, read, if_true]
    refine ⟨valid, rfl, rfl, .inl ⟨rfl, rfl, ⟨?_, cached, ?_⟩, 512 * cc, by omega, few,
      bytes.symm, rfl⟩⟩
    · intro _
      dsimp only
      rw [last_cluster (by omega) within]
      exact clust
    · intro unfinished
      dsimp only at unfinished
      omega
  · simp only [same, read, Bool.false_eq_true, if_false]
    refine ⟨valid, rfl, rfl, .inr ⟨.diskErr, min k (512 * cc), rfl, by decide, faulty, by omega,
      ?_⟩⟩
    rw [← bytes, List.take_eq_take_min, window_length, window_take _ (Nat.min_le_right _ _)]

/-- A part of a sector is copied from the buffer of the object. -/
theorem readSector_part (fp : Fil) (sound : v.Sound) (fits : Fits d v) (valid : w.Valid d)
    (positive : 0 < btr) (less : ¬ btr / 512 > 0) (start : fp.fptr % 512 = 0)
    (clust : cs[fp.fptr / (512 * v.csize)]? = some fp.clust)
    (low : 2 ≤ fp.clust) (high : fp.clust < v.nFatent)
    (cached : fp.sect ≠ 0 → ∀ o < 512, fp.buf o = d.bytes (512 * fp.sect + o)) :
    (readSector d v w fp (fp.fptr / 512 % v.csize) btr).Good d v cs fp btr := by
  obtain ⟨present, inside⟩ := clst2sect_inside sound fits low high
  have below := Nat.mod_lt (fp.fptr / 512) sound.csize_pos
  have here := place_sector sound clust low high start
  unfold readSector
  generalize clst2sect v fp.clust = base at *
  generalize fp.fptr / 512 % v.csize = csect at *
  rw [if_neg (by omega)]
  dsimp only
  rw [if_neg less]
  have sector : base + csect = place v cs fp.fptr / 512 := by omega
  split
  · rcases diskRead_cases w.reads (by decide : 1 ≤ _)
      (by omega : base + csect + 1 ≤ d.sectors) with read | ⟨k, read, faulty⟩
    · simp only [read, if_true]
      have valid' : Win.Valid ⟨w.winsect, w.win, w.reads + 1⟩ d := valid
      have good := copyPart_good ⟨fp.obj, fp.faRead, fp.err, fp.fptr, fp.clust, base + csect,
        store fp.buf 0 (window d.bytes (512 * (base + csect)) (512 * 1))⟩ sound valid' positive
        clust (read_shows fp.buf (base + csect) w.reads) sector
      exact ⟨good.valid, good.obj, good.faRead, good.result⟩
    · simp only [read, Bool.false_eq_true, if_false]
      exact ⟨valid, rfl, rfl, .inr ⟨.diskErr, 0, rfl, by decide, faulty, Nat.zero_le _, rfl⟩⟩
  · rename_i same
    have held := Decidable.not_not.mp same
    have good := copyPart_good { fp with sect := base + csect } sound valid positive clust
      (held ▸ cached (by omega)) sector
    exact ⟨good.valid, good.obj, good.faRead, good.result⟩

theorem readSector_good (fp : Fil) (sound : v.Sound) (fits : Fits d v) (valid : w.Valid d)
    (positive : 0 < btr) (start : fp.fptr % 512 = 0)
    (clust : cs[fp.fptr / (512 * v.csize)]? = some fp.clust)
    (low : 2 ≤ fp.clust) (high : fp.clust < v.nFatent)
    (cached : fp.sect ≠ 0 → ∀ o < 512, fp.buf o = d.bytes (512 * fp.sect + o)) :
    (readSector d v w fp (fp.fptr / 512 % v.csize) btr).Good d v cs fp btr := by
  by_cases whole : btr / 512 > 0
  · exact readSector_whole fp sound fits valid whole start clust low high cached
  · exact readSector_part fp sound fits valid positive whole start clust low high cached

theorem Chain.get (chain : Chain d v fp.obj cs) (sound : v.Sound)
    (inside : fp.fptr < fp.obj.objsize) :
    ∃ c, cs[fp.fptr / (512 * v.csize)]? = some c ∧ 2 ≤ c ∧ c < v.nFatent := by
  have positive := sound.csize_pos
  have short : fp.fptr / (512 * v.csize) < cs.length := by
    apply Nat.div_lt_of_lt_mul
    exact Nat.lt_of_lt_of_le inside chain.room
  have linked := List.getElem?_eq_getElem short
  exact ⟨_, linked, chain.valid _ (List.getElem_mem short)⟩

theorem pred_div {p m : Nat} (within : 0 < p % m) : (p - 1) / m = p / m := by
  have split := Nat.div_add_mod p m
  rcases Nat.eq_zero_or_pos m with rfl | positive
  · rw [Nat.div_zero, Nat.div_zero]
  · have below := Nat.mod_lt p positive
    apply Nat.div_eq_of_lt_le
    · rw [Nat.mul_comm]
      omega
    · rw [Nat.mul_comm, Nat.mul_succ]
      omega

theorem Placed.clust_here (placed : Placed d v cs fp) (within : 0 < fp.fptr % (512 * v.csize)) :
    cs[fp.fptr / (512 * v.csize)]? = some fp.clust := by
  rw [← pred_div within]
  apply placed.clust
  exact Nat.pos_of_ne_zero fun zero => by rw [zero, Nat.zero_mod] at within; omega

theorem Placed.next_clust (placed : Placed d v cs fp) (chain : Chain d v fp.obj cs)
    (sound : v.Sound) (later : 0 < fp.fptr) (ended : fp.fptr % (512 * v.csize) = 0) {c : Nat}
    (linked : cs[fp.fptr / (512 * v.csize)]? = some c) :
    2 ≤ fp.clust ∧ fp.clust < v.nFatent ∧ entry d v fp.obj fp.clust = c := by
  have clust := placed.clust later
  have positive : 0 < 512 * v.csize := Nat.mul_pos (by decide) sound.csize_pos
  have split := Nat.div_add_mod fp.fptr (512 * v.csize)
  have some' : 0 < fp.fptr / (512 * v.csize) := Nat.pos_of_ne_zero fun zero => by
    rw [zero, ended, Nat.mul_zero] at split
    omega
  obtain ⟨i, next⟩ := Nat.exists_eq_add_of_lt some'
  have before : (fp.fptr - 1) / (512 * v.csize) = i := by
    rw [next, Nat.zero_add, Nat.mul_succ] at split
    apply Nat.div_eq_of_lt_le
    · rw [Nat.mul_comm]
      omega
    · rw [Nat.mul_comm, Nat.mul_succ]
      omega
  rw [before] at clust
  rw [next, Nat.zero_add] at linked
  obtain ⟨low, high⟩ := chain.valid _ (List.mem_of_getElem? clust)
  exact ⟨low, high, chain.linked i _ _ clust linked⟩

theorem readRound_good (sound : v.Sound) (fits : Fits d v) (chain : Chain d v fp.obj cs)
    (valid : w.Valid d) (placed : Placed d v cs fp) (positive : 0 < btr)
    (inside : fp.fptr + btr ≤ fp.obj.objsize) :
    (readRound d v w fp btr).Good d v cs fp btr := by
  obtain ⟨c, linked, low, high⟩ := chain.get sound (by omega)
  have csize := sound.csize_pos
  have rest := cluster_rest (v := v) (p := fp.fptr)
  unfold readRound
  rw [sound.csect_eq]
  split
  · rename_i start
    dsimp only
    split
    · rename_i top
      have good := fun w' valid' => readSector_good (w := w') { fp with clust := c } sound fits
        valid' positive start linked low high placed.cached
      have few := sound.nFatent_le
      split
      · rename_i first
        have head : c = fp.obj.sclust := by
          rw [first, Nat.zero_div] at linked
          exact chain.first c linked
        rw [← head, if_neg (by omega), if_neg (by omega)]
        have good' := good w valid
        exact ⟨good'.valid, good'.obj, good'.faRead, good'.result⟩
      · rename_i later
        obtain ⟨low', high', next⟩ :=
          placed.next_clust chain sound (Nat.pos_of_ne_zero later) (by omega) linked
        have found := getFat_found fp.obj sound fits valid low' high'
        rw [next] at found
        rcases found.2 with value | ⟨failed, faulty⟩
        · rw [value, if_neg (by omega), if_neg (by omega)]
          have good' := good _ found.1
          exact ⟨good'.valid, good'.obj, good'.faRead, good'.result⟩
        · rw [failed, if_neg (by decide), if_pos rfl]
          exact ⟨found.1, rfl, rfl,
            .inr ⟨.diskErr, 0, rfl, by decide, faulty, Nat.zero_le _, rfl⟩⟩
    · rename_i middle
      have clust := placed.clust_here (by omega)
      rw [linked] at clust
      cases clust
      exact readSector_good fp sound fits valid positive start linked low high placed.cached
  · rename_i middle
    have clust := placed.clust_here (by omega)
    have current := placed.current middle
    have present : fp.sect ≠ 0 := by
      have first := sound.database_pos
      rw [current, place]
      omega
    exact copyPart_good fp sound valid positive clust (placed.cached present) current

/-- What the loop has done, with the file left for the next call unless a round is aborted. -/
structure Read.Good (d : Drive) (v : Volume) (cs : List Nat) (fp : Fil) (btr : Nat)
    (r : Read) : Prop where
  valid : r.w.Valid d
  obj : r.fp.obj = fp.obj
  faRead : r.fp.faRead = fp.faRead
  result : (r.res = .ok ∧ r.fp.err = fp.err ∧ Placed d v cs r.fp ∧ r.br = btr ∧
      r.stored = window (content d v cs) fp.fptr btr ∧ r.fp.fptr = fp.fptr + btr) ∨
    ∃ n, r.res ≠ .ok ∧ r.fp.err = r.res ∧ Faulty d ∧ r.br ≤ n ∧ n ≤ btr ∧
      r.stored = window (content d v cs) fp.fptr n

theorem readLoop_good (sound : v.Sound) (fits : Fits d v) {rounds : Nat}
    (chain : Chain d v fp.obj cs) (valid : w.Valid d) (placed : Placed d v cs fp)
    (enough : btr ≤ rounds) (inside : fp.fptr + btr ≤ fp.obj.objsize) :
    (readLoop d v rounds w fp btr).Good d v cs fp btr := by
  induction rounds generalizing w fp btr with
  | zero =>
    obtain rfl := Nat.le_zero.mp enough
    exact ⟨valid, rfl, rfl, .inl ⟨rfl, rfl, placed, rfl, rfl, rfl⟩⟩
  | succ rounds ih =>
    unfold readLoop
    split
    · rename_i positive
      have good := readRound_good sound fits chain valid placed positive inside
      dsimp only
      generalize readRound d v w fp btr = r at *
      rcases good.result with ⟨going, same, placed', n, some', few, stored, moved⟩ |
        ⟨e, n, abort, bad, faulty, few, stored⟩
      · simp only [going]
        have length : r.stored.length = n := by rw [stored, window_length]
        rw [length]
        have inside' : r.fp.fptr + (btr - n) ≤ r.fp.obj.objsize := by
          rw [moved, good.obj]
          omega
        have rest : (readLoop d v rounds r.w r.fp (btr - n)).Good d v cs r.fp (btr - n) :=
          ih (good.obj ▸ chain) good.valid placed' (by omega) inside'
        generalize readLoop d v rounds r.w r.fp (btr - n) = r' at *
        have whole := window_append (content d v cs) fp.fptr n
        refine ⟨rest.valid, rest.obj.trans good.obj, rest.faRead.trans good.faRead, ?_⟩
        rcases rest.result with ⟨ok, same', placed'', br, stored', moved'⟩ |
          ⟨m, bad, sticky, faulty, br, few', stored'⟩
        · left
          have total : n + r'.br = btr := by omega
          have arrived : r'.fp.fptr = fp.fptr + btr := by omega
          refine ⟨ok, same'.trans same, placed'', total, ?_, arrived⟩
          rw [stored, stored', moved, whole, Nat.add_sub_cancel' few]
        · right
          have total : n + r'.br ≤ n + m := Nat.add_le_add_left br n
          refine ⟨n + m, bad, sticky, faulty, total, by omega, ?_⟩
          rw [stored, stored', moved, whole]
      · simp only [abort]
        exact ⟨good.valid, good.obj, good.faRead,
          .inr ⟨n, bad, rfl, faulty, Nat.zero_le n, few, stored⟩⟩
    · rename_i none'
      obtain rfl := Nat.eq_zero_of_not_pos none'
      exact ⟨valid, rfl, rfl, .inl ⟨rfl, rfl, placed, rfl, rfl, rfl⟩⟩

end Rounds

section Files

variable {d : Drive} {v : Volume} {cs : List Nat} {fp : Fil} {w : Win} {btr : Nat}

def FResult.failure : FResult → Option FResult
  | .ok => none
  | res => some res

theorem FResult.failure_eq {res : FResult} (bad : res ≠ .ok) : res.failure = some res := by
  cases res <;> first | rfl | exact absurd rfl bad

def Read.outcome (r : Read) : Outcome FResult Byte := ⟨r.res.failure, r.stored⟩

def Fil.cursor (fp : Fil) : Cursor FResult := ⟨fp.fptr, fp.err.failure⟩

structure Open (d : Drive) (v : Volume) (cs : List Nat) (fp : Fil) : Prop where
  checked : validate d v fp.obj = .ok
  faRead : fp.faRead = true
  chain : Chain d v fp.obj cs
  inside : fp.err = .ok → fp.fptr ≤ fp.obj.objsize
  placed : fp.err = .ok → Placed d v cs fp

theorem fRead_stuck (checked : validate d v fp.obj = .ok) (bad : fp.err ≠ .ok) :
    fRead d v w fp btr = ⟨fp.err, [], 0, fp, w⟩ := by
  unfold fRead
  rw [checked]
  dsimp only
  split
  · rename_i ok
    exact absurd ok bad
  · rfl

theorem fRead_call (sound : v.Sound) (fits : Fits d v) (opened : Open d v cs fp)
    (valid : w.Valid d) (btr : Nat) :
    Call (content d v cs) fp.obj.objsize fp.cursor btr (fRead d v w fp btr).outcome
        (fRead d v w fp btr).fp.cursor ∧
      Open d v cs (fRead d v w fp btr).fp ∧ (fRead d v w fp btr).w.Valid d ∧
      (fRead d v w fp btr).fp.obj = fp.obj ∧
      ((fRead d v w fp btr).fp.err ≠ fp.err → Faulty d) ∧
      ((fRead d v w fp btr).res = .ok →
        (fRead d v w fp btr).br = (fRead d v w fp btr).stored.length) := by
  rcases Decidable.em (fp.err = .ok) with failed | bad
  · have short : (if btr > fp.obj.objsize - fp.fptr then fp.obj.objsize - fp.fptr else btr) =
        min btr (fp.obj.objsize - fp.fptr) := by
      split <;> omega
    have start : fp.cursor = ⟨fp.fptr, none⟩ := by rw [Fil.cursor, failed, FResult.failure]
    have room := opened.inside failed
    have good := readLoop_good sound fits opened.chain valid (opened.placed failed)
      (Nat.le_refl (min btr (fp.obj.objsize - fp.fptr))) (by omega)
    unfold fRead
    simp only [opened.checked, failed, opened.faRead, if_true, short]
    rw [start]
    generalize readLoop d v (min btr (fp.obj.objsize - fp.fptr)) w fp
      (min btr (fp.obj.objsize - fp.fptr)) = r at *
    have checked : validate d v r.fp.obj = .ok := good.obj ▸ opened.checked
    have faRead := good.faRead.trans opened.faRead
    have chain := good.obj ▸ opened.chain
    rcases good.result with ⟨ok, same, placed, br, stored, moved⟩ |
      ⟨n, bad, sticky, faulty, -, few, stored⟩
    · have outcome : r.outcome =
          ⟨none, window (content d v cs) fp.fptr (min btr (fp.obj.objsize - fp.fptr))⟩ := by
        rw [Read.outcome, ok, stored, FResult.failure]
      have cursor : r.fp.cursor = ⟨fp.fptr + min btr (fp.obj.objsize - fp.fptr), none⟩ := by
        rw [Fil.cursor, same, failed, moved, FResult.failure]
      rw [outcome, cursor]
      refine ⟨.whole, ⟨checked, faRead, chain, fun _ => ?_, fun _ => placed⟩, good.valid,
        good.obj, fun changed => absurd (same.trans failed) changed, fun _ => ?_⟩
      · rw [good.obj, moved]
        omega
      · rw [br, stored, window_length]
    · have outcome : r.outcome = ⟨some r.res, window (content d v cs) fp.fptr n⟩ := by
        rw [Read.outcome, stored, FResult.failure_eq bad]
      have cursor : r.fp.cursor = ⟨r.fp.fptr, some r.res⟩ := by
        rw [Fil.cursor, sticky, FResult.failure_eq bad]
      have stuck : r.fp.err ≠ .ok := sticky ▸ bad
      rw [outcome, cursor]
      exact ⟨.part few _, ⟨checked, faRead, chain, fun ok => absurd ok stuck,
        fun ok => absurd ok stuck⟩, good.valid, good.obj, fun _ => faulty, fun ok => absurd ok bad⟩
  · have cursor : fp.cursor = ⟨fp.fptr, some fp.err⟩ := by
      rw [Fil.cursor, FResult.failure_eq bad]
    rw [fRead_stuck opened.checked bad, Read.outcome, FResult.failure_eq bad, cursor]
    exact ⟨.stuck, opened, valid, rfl, fun changed => absurd rfl changed, fun _ => rfl⟩

/-- Calls of f_read on one file. Before each of them other functions may have read the card
through the window. -/
def fReads (d : Drive) (v : Volume) : Fil → List (Nat × Win) → List Read
  | _, [] => []
  | fp, (btr, w) :: calls => fRead d v w fp btr :: fReads d v (fRead d v w fp btr).fp calls

theorem fReads_calls (sound : v.Sound) (fits : Fits d v) (opened : Open d v cs fp)
    {calls : List (Nat × Win)} (valid : ∀ call ∈ calls, call.2.Valid d) :
    ∃ c, Calls (content d v cs) fp.obj.objsize fp.cursor (calls.map Prod.fst)
        ((fReads d v fp calls).map Read.outcome) c ∧
      (fp.err = .ok → ¬ Faulty d → c.failed = none) ∧
      ∀ r ∈ fReads d v fp calls, r.res = .ok → r.br = r.stored.length := by
  induction calls generalizing fp with
  | nil =>
    refine ⟨fp.cursor, .nil, fun ok _ => ?_, nofun⟩
    rw [Fil.cursor, ok, FResult.failure]
  | cons call calls ih =>
    obtain ⟨btr, w⟩ := call
    obtain ⟨first, opened', -, same, faulty, counted⟩ :=
      fRead_call sound fits opened (valid _ List.mem_cons_self) btr
    obtain ⟨c, rest, working, counts⟩ := ih opened' fun call later =>
      valid call (List.mem_cons_of_mem _ later)
    rw [same] at rest
    refine ⟨c, .cons first rest, fun ok healthy => working ?_ healthy,
      List.forall_mem_cons.mpr ⟨counted, counts⟩⟩
    exact Decidable.byContradiction fun bad => healthy (faulty (ok ▸ bad))

/-- f_read is a cursor over the bytes of the file. In any sequence of calls each gives the next
bytes and their number, until one fails; what all of them give is one piece of the file, and
all of it that has been asked for unless the card fails. -/
theorem fReads_bytes (sound : v.Sound) (fits : Fits d v) (opened : Open d v cs fp)
    (ok : fp.err = .ok) (calls : List (Nat × Win)) (valid : ∀ call ∈ calls, call.2.Valid d) :
    let reads := fReads d v fp calls
    (∀ r ∈ reads, r.res = .ok → r.br = r.stored.length) ∧
    ∃ c k, Calls (content d v cs) fp.obj.objsize ⟨fp.fptr, none⟩ (calls.map Prod.fst)
        (reads.map Read.outcome) c ∧
      reads.flatMap Read.stored = window (content d v cs) fp.fptr k ∧
      k ≤ min (calls.map Prod.fst).sum (fp.obj.objsize - fp.fptr) ∧
      (¬ Faulty d → c.failed = none ∧
        k = min (calls.map Prod.fst).sum (fp.obj.objsize - fp.fptr)) := by
  intro reads
  obtain ⟨c, cursor, working, counted⟩ := fReads_calls sound fits opened valid
  have start : fp.cursor = ⟨fp.fptr, none⟩ := by rw [Fil.cursor, ok, FResult.failure]
  rw [start] at cursor
  obtain ⟨k, short, bytes, all⟩ := cursor.given_eq
  have stored : given (reads.map Read.outcome) = reads.flatMap Read.stored := by
    rw [given, List.flatMap_map]
    rfl
  exact ⟨counted, c, k, cursor, stored ▸ bytes, short,
    fun healthy => ⟨working ok healthy, all (working ok healthy)⟩⟩

end Files

section Floppy

theorem floppy_linked (fault : Nat → Option Nat) :
    entry (floppy fault) floppyVolume floppyFile.obj 2 = 3 := by
  have healthy : entry (floppy fun _ => none) floppyVolume floppyFile.obj 2 = 3 := by
    decide +kernel
  unfold entry at healthy ⊢
  exact healthy

theorem floppy_open (fault : Nat → Option Nat) :
    Open (floppy fault) floppyVolume [2, 3] floppyFile where
  checked := rfl
  faRead := rfl
  chain := {
    first := fun c head => by cases head; rfl
    linked := fun i c c' this next => by
      match i with
      | 0 =>
        cases this
        cases next
        exact floppy_linked fault
      | i + 1 => cases next
    valid := by decide
    room := by decide }
  inside := fun _ => by decide
  placed := fun _ => ⟨fun later => absurd later (by decide), fun some' => absurd rfl some',
    fun within => absurd rfl within⟩

/-- A card that fails at its second transfer, after 5 bytes. -/
theorem floppy_reads :
    let d := floppy fun turn => if turn = 1 then some 5 else none
    let reads := fReads d floppyVolume floppyFile [(10, emptyWin), (600, emptyWin), (1, emptyWin)]
    ∃ k ≤ 600, reads.flatMap Read.stored = window (content d floppyVolume [2, 3]) 0 k := by
  have valid : ∀ call ∈ [(10, emptyWin), (600, emptyWin), (1, emptyWin)],
      call.2.Valid (floppy fun turn => if turn = 1 then some 5 else none) := by
    intro call member
    have same : call.2 = emptyWin := by
      simp only [List.mem_cons, List.not_mem_nil, or_false] at member
      rcases member with rfl | rfl | rfl <;> rfl
    exact same ▸ emptyWin_valid _
  obtain ⟨-, -, k, -, stored, short, -⟩ :=
    fReads_bytes floppy_sound (floppy_fits _) (floppy_open _) rfl _ valid
  exact ⟨k, Nat.le_trans short (Nat.min_le_right _ _), stored⟩

end Floppy

end MultiZone.Fat
