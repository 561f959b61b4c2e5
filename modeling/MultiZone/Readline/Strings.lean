import MultiZone.Readline.Model
import Mathlib.Data.List.DropRight
import Mathlib.Logic.Function.Basic

/-! What the loops of readline do to the string in a buffer of 33 bytes. -/
namespace MultiZone.Readline

/-- The buffer holds the string; its last byte is never anything but NUL. -/
structure Holds (m s : List Byte) : Prop where
  size : m.length = 33
  last : m[32]? = some 0
  noNul : 0 ∉ s
  string : ∃ rest, m = s ++ 0 :: rest

section Holds

variable {m s : List Byte}

theorem cstring_eq (h : Holds m s) : cstring m = s := by
  obtain ⟨rest, rfl⟩ := h.string
  exact cstring_terminated rest h.noNul

theorem Holds.nul (h : Holds m s) : 0 ∈ m := by
  obtain ⟨rest, rfl⟩ := h.string
  simp

theorem Holds.length_le (h : Holds m s) : s.length ≤ 32 := by
  obtain ⟨rest, hm⟩ := h.string
  have size := h.size
  rw [hm, List.length_append, List.length_cons] at size
  omega

theorem strlen_eq (h : Holds m s) : strlen m = .ok s.length := by
  rw [strlen, if_pos h.nul, cstring_eq h]

theorem strcmp_eq {m' s' : List Byte} (h : Holds m s) (h' : Holds m' s') :
    strcmp m m' = .ok (decide (s = s')) := by
  rw [strcmp, if_pos ⟨h.nul, h'.nul⟩, cstring_eq h, cstring_eq h']

theorem strcpy_eq {dst t : List Byte} (h : Holds m s) (hd : Holds dst t) :
    ∃ m', strcpy dst m = .ok m' ∧ Holds m' s := by
  have short := h.length_le
  have size := hd.size
  refine ⟨s ++ 0 :: dst.drop (s.length + 1), ?_, ?_, ?_, h.noNul, _, rfl⟩
  · rw [strcpy, if_pos h.nul, cstring_eq h, if_pos (by omega)]
  · simp only [List.length_append, List.length_cons, List.length_drop]
    omega
  · by_cases full : s.length = 32
    · rw [List.getElem?_append_right (by omega)]
      simp [full]
    · rw [List.getElem?_append_right (by omega),
        show 32 - s.length = (31 - s.length) + 1 by omega, List.getElem?_cons_succ,
        List.getElem?_drop, show s.length + 1 + (31 - s.length) = 32 by omega]
      exact hd.last

end Holds

section Access

theorem get_append {a b : List Byte} {x : Byte} : get (a ++ x :: b) a.length = .ok x := by
  simp [get]

theorem get_outside {m : List Byte} {i : Nat} (out : m.length ≤ i) :
    get m i = .error .outOfBounds := by
  rw [get, List.getElem?_eq_none out]

theorem put_append {a b : List Byte} {x y : Byte} :
    put (a ++ x :: b) a.length y = .ok (a ++ y :: b) := by
  simp [put]

theorem strlen_terminated {s : List Byte} (rest : List Byte) (noNul : 0 ∉ s) :
    strlen (s ++ 0 :: rest) = .ok s.length := by
  rw [strlen, if_pos (by simp), cstring_terminated rest noNul]

end Access

section Shift

variable {m m' : List Byte} {i n fuel : Nat} {b : Byte}

theorem shiftLeft_step (length : strlen m = .ok n) (inside : i < n)
    (read : get m (i + 1) = .ok b) (write : put m i b = .ok m') :
    shiftLeft (fuel + 1) i m = shiftLeft fuel (i + 1) m' := by
  simp only [shiftLeft, bind, Except.bind, length, if_pos inside, read, write]

theorem shiftLeft_stop (length : strlen m = .ok n) (outside : n ≤ i) :
    shiftLeft (fuel + 1) i m = .ok m := by
  simp only [shiftLeft, bind, Except.bind, length, if_neg (Nat.not_lt.mpr outside)]

theorem shiftLeft_move {pre t rest u : List Byte} {x y : Byte} (hpre : 0 ∉ pre) (hx : x ≠ 0)
    (ht : 0 ∉ t) (hy : t ++ 0 :: rest = y :: u) :
    shiftLeft (fuel + 1) pre.length (pre ++ x :: (t ++ 0 :: rest)) =
      shiftLeft fuel (pre.length + 1) (pre ++ y :: y :: u) := by
  apply shiftLeft_step (n := pre.length + (t.length + 1)) (b := y)
  · have whole := strlen_terminated (s := pre ++ x :: t) rest (by simp [hpre, hx.symm, ht])
    simpa using whole
  · omega
  · have read := get_append (a := pre ++ [x]) (b := u) (x := y)
    simpa [hy] using read
  · rw [hy]
    exact put_append

theorem shiftLeft_from {pre t rest : List Byte} {x : Byte} {fuel : Nat} (hpre : 0 ∉ pre)
    (hx : x ≠ 0) (ht : 0 ∉ t) (hfuel : t.length + 2 ≤ fuel) :
    shiftLeft fuel pre.length (pre ++ x :: (t ++ 0 :: rest)) =
      .ok (pre ++ (t ++ 0 :: 0 :: rest)) := by
  induction t generalizing pre x fuel with
  | nil =>
    obtain ⟨fuel, rfl⟩ : ∃ k, fuel = k + 2 := ⟨fuel - 2, by simp at hfuel; omega⟩
    rw [shiftLeft_move hpre hx ht rfl]
    exact shiftLeft_stop (strlen_terminated _ hpre) (Nat.le_succ _)
  | cons y t ih =>
    obtain ⟨fuel, rfl⟩ : ∃ k, fuel = k + 1 := ⟨fuel - 1, by simp at hfuel; omega⟩
    rw [List.mem_cons, not_or] at ht
    rw [shiftLeft_move hpre hx (by simp [ht]) rfl]
    have prefixed : 0 ∉ pre ++ [y] := by simp [hpre, ht.1]
    have rest := ih prefixed (Ne.symm ht.1) ht.2 (Nat.le_of_succ_le_succ hfuel)
    simpa using rest

theorem shiftLeft_delete {a t : List Byte} {x : Byte} (h : Holds m (a ++ x :: t)) :
    ∃ m', shiftLeft (m.length + 1) a.length m = .ok m' ∧ Holds m' (a ++ t) := by
  have short := h.length_le
  have size := h.size
  have noNul := h.noNul
  have last := h.last
  obtain ⟨rest, rfl⟩ := h.string
  rw [List.mem_append, List.mem_cons, not_or, not_or] at noNul
  obtain ⟨ha, hx, ht⟩ := noNul
  simp only [List.length_append, List.length_cons] at short
  refine ⟨a ++ (t ++ 0 :: 0 :: rest), ?_, ?_, ?_, by simp [ha, ht], 0 :: rest, by simp⟩
  · rw [List.append_assoc, List.cons_append]
    exact shiftLeft_from ha (Ne.symm hx) ht (by simp; omega)
  · simp only [List.length_append, List.length_cons] at size ⊢
    omega
  · have tail : 32 - (a ++ t).length = 32 - (a ++ x :: t).length + 1 := by
      simp only [List.length_append, List.length_cons]
      omega
    rw [List.getElem?_append_right (by simp; omega)] at last
    rw [← List.append_assoc, List.getElem?_append_right (by simp; omega), tail,
      List.getElem?_cons_succ]
    exact last

theorem shiftLeft_end {s : List Byte} (h : Holds m s) :
    shiftLeft (m.length + 1) s.length m = .ok m :=
  shiftLeft_stop (strlen_eq h) (Nat.le_refl _)

end Shift

section Room

theorem makeRoom_step {p i : Nat} {m m' : List Byte} {b : Byte} (more : p < i + 1)
    (read : get m i = .ok b) (write : put m (i + 1) b = .ok m') :
    makeRoom p (i + 1) m = makeRoom p i m' := by
  simp only [makeRoom, if_pos more, bind, Except.bind, read, write]

theorem makeRoom_stop {p i : Nat} {m : List Byte} (done : i ≤ p) : makeRoom p i m = .ok m := by
  cases i with
  | zero => rfl
  | succ i => rw [makeRoom, if_neg (by omega)]

theorem makeRoom_eq (a w post : List Byte) (x : Byte) :
    makeRoom a.length (a.length + w.length) (a ++ x :: (w ++ post)) =
      .ok (a ++ x :: ((x :: w).dropLast ++ post)) := by
  induction w using List.reverseRecOn generalizing post with
  | nil => exact makeRoom_stop (Nat.le_refl _)
  | append_singleton u z ih =>
    obtain ⟨v, y, hy⟩ : ∃ v y, x :: u = v ++ [y] :=
      ⟨_, _, (List.dropLast_concat_getLast (List.cons_ne_nil x u)).symm⟩
    have length : v.length = u.length := by
      have := congrArg List.length hy
      simp at this
      omega
    have read : get (a ++ x :: (u ++ [z] ++ post)) (a.length + u.length) = .ok y := by
      have read := get_append (a := a ++ v) (b := z :: post) (x := y)
      rw [List.length_append, length] at read
      rw [← read, ← List.cons_append, ← List.cons_append, hy]
      simp
    have write : put (a ++ x :: (u ++ [z] ++ post)) (a.length + u.length + 1) y =
        .ok (a ++ x :: (u ++ y :: post)) := by
      have write := put_append (a := a ++ x :: u) (b := post) (x := z) (y := y)
      simpa [Nat.add_assoc] using write
    rw [List.length_append, List.length_singleton, ← Nat.add_assoc,
      makeRoom_step (by omega) read write, ih (y :: post)]
    have whole : (x :: (u ++ [z])).dropLast = x :: u := by
      rw [← List.cons_append, List.dropLast_concat]
    rw [whole, hy, List.dropLast_concat]
    simp

/-- The cells from an index on, of which the last one is not moved: without the one
before it they begin like the string, and hold its end. -/
theorem Holds.cells {m a t : List Byte} (h : Holds m (a ++ t)) (room : a.length < 32) :
    ∃ x w, m = a ++ x :: (w ++ [0]) ∧ w.length = 31 - a.length ∧
      ∃ rest, (x :: w).dropLast ++ [0] = t.take (31 - a.length) ++ 0 :: rest := by
  have size := h.size
  have last := h.last
  obtain ⟨rest, hm⟩ := h.string
  obtain ⟨k, hk⟩ : ∃ k, k = 31 - a.length := ⟨_, rfl⟩
  obtain ⟨u, hu⟩ : ∃ u, u = t ++ 0 :: rest := ⟨_, rfl⟩
  rw [List.append_assoc, ← hu] at hm
  rw [hm, List.length_append] at size
  have whole : u = u.take (k + 1) ++ [0] := by
    rw [hm, List.getElem?_append_right (by omega), show 32 - a.length = k + 1 by omega] at last
    have all : u = u.take (k + 2) := (List.take_of_length_le (by omega)).symm
    rw [List.take_add_one (i := k + 1), last] at all
    exact all
  obtain ⟨x, w, hw⟩ : ∃ x w, u.take (k + 1) = x :: w := by
    apply List.exists_cons_of_ne_nil
    intro none
    have empty := congrArg List.length none
    rw [List.length_take, List.length_nil] at empty
    omega
  refine ⟨x, w, ?_, ?_, ?_⟩
  · rw [hm, whole, hw, List.cons_append]
  · have taken := congrArg List.length hw
    rw [List.length_take, List.length_cons] at taken
    omega
  · rw [← hw, List.dropLast_take (by omega), Nat.add_sub_cancel, hu, List.take_append, ← hk]
    cases k - t.length with
    | zero => exact ⟨[], by simp⟩
    | succ j => exact ⟨rest.take j ++ [0], by simp⟩

theorem insert_eq {m a t : List Byte} {c : Byte} (h : Holds m (a ++ t)) (room : a.length < 32)
    (hc : c ≠ 0) : ∃ m₁ m₂, makeRoom a.length 31 m = .ok m₁ ∧ put m₁ a.length c = .ok m₂ ∧
      Holds m₂ (a ++ c :: t.take (31 - a.length)) := by
  have noNul := h.noNul
  rw [List.mem_append, not_or] at noNul
  obtain ⟨x, w, rfl, length, rest, kept⟩ := h.cells room
  have front : (a ++ c :: (x :: w).dropLast).length = 32 := by
    rw [List.length_append, List.length_cons, List.length_dropLast, List.length_cons]
    omega
  refine ⟨a ++ x :: ((x :: w).dropLast ++ [0]), a ++ c :: ((x :: w).dropLast ++ [0]), ?_,
    put_append, ?_, ?_, ?_, rest, by rw [kept]; simp⟩
  · have moved := makeRoom_eq a w [0] x
    rw [length, Nat.add_sub_cancel' (by omega)] at moved
    exact moved
  · rw [← List.cons_append, ← List.append_assoc, List.length_append, front]
    rfl
  · rw [← List.cons_append, ← List.append_assoc, ← front]
    exact List.getElem?_concat_length
  · simp only [List.mem_append, List.mem_cons, not_or]
    exact ⟨noNul.1, Ne.symm hc, fun hn => noNul.2 (List.mem_of_mem_take hn)⟩

end Room

section Trim

def isSpace (b : Byte) : Bool := b = ch ' '

theorem trimRight_step {fuel n : Nat} {m m' : List Byte} (length : strlen m = .ok n)
    (space : get m (pred n) = .ok (ch ' ')) (write : put m (pred n) 0 = .ok m') :
    trimRight (fuel + 1) m = trimRight fuel m' := by
  simp only [trimRight, bind, Except.bind, length, space, if_true, write]

theorem trimRight_stop {fuel n : Nat} {m : List Byte} {b : Byte} (length : strlen m = .ok n)
    (read : get m (pred n) = .ok b) (other : b ≠ ch ' ') : trimRight (fuel + 1) m = .ok m := by
  simp only [trimRight, bind, Except.bind, length, read, if_neg other]

theorem Holds.chop {u rest : List Byte} {b : Byte} (h : Holds (u ++ b :: 0 :: rest) (u ++ [b])) :
    Holds (u ++ 0 :: 0 :: rest) u := by
  have short := h.length_le
  have size := h.size
  have last := h.last
  have noNul := h.noNul
  rw [List.mem_append, not_or] at noNul
  rw [List.length_append, List.length_singleton] at short
  refine ⟨by simpa using size, ?_, noNul.1, _, rfl⟩
  by_cases full : u.length = 31
  · rw [List.getElem?_append_right (by omega), full] at last ⊢
    exact last
  · rw [List.getElem?_append_right (by omega),
      show 32 - u.length = (30 - u.length) + 1 + 1 by omega] at last ⊢
    exact last

theorem trimRight_eq {m s : List Byte} {fuel : Nat} (h : Holds m s) (hfuel : s.length < fuel) :
    s.rdropWhile isSpace = [] ∧ trimRight fuel m = .error .outOfBounds ∨
    s.rdropWhile isSpace ≠ [] ∧
      ∃ m', trimRight fuel m = .ok m' ∧ Holds m' (s.rdropWhile isSpace) := by
  induction s using List.reverseRecOn generalizing m fuel with
  | nil =>
    -- strlen is 0, and inputline[strlen(inputline)-1] lies in front of the buffer
    left
    obtain ⟨fuel, rfl⟩ : ∃ k, fuel = k + 1 := ⟨fuel - 1, by simp at hfuel; omega⟩
    have out : get m (pred 0) = .error .outOfBounds := by
      apply get_outside
      rw [h.size, pred]
      decide
    refine ⟨rfl, ?_⟩
    simp only [trimRight, bind, Except.bind, strlen_eq h, List.length_nil, out]
  | append_singleton u b ih =>
    obtain ⟨fuel, rfl⟩ : ∃ k, fuel = k + 1 := ⟨fuel - 1, by simp at hfuel; omega⟩
    have length := strlen_eq h
    obtain ⟨rest, rfl⟩ := h.string
    rw [← List.append_cons] at h length ⊢
    rw [List.length_append, List.length_singleton] at hfuel length
    have read : get (u ++ b :: 0 :: rest) (pred (u.length + 1)) = .ok b := get_append
    by_cases space : b = ch ' '
    · have write : put (u ++ b :: 0 :: rest) (pred (u.length + 1)) 0 =
          .ok (u ++ 0 :: 0 :: rest) := put_append
      rw [trimRight_step length (space ▸ read) write,
        List.rdropWhile_concat_pos _ _ _ (by simp [isSpace, space])]
      exact ih h.chop (by omega)
    · right
      rw [trimRight_stop length read space,
        List.rdropWhile_concat_neg _ _ _ (by simp [isSpace, space])]
      exact ⟨by simp, _, rfl, h⟩

theorem trimLeft_step {fuel : Nat} {m m' : List Byte} (space : get m 0 = .ok (ch ' '))
    (shift : shiftLeft (m.length + 1) 0 m = .ok m') :
    trimLeft (fuel + 1) m = trimLeft fuel m' := by
  simp only [trimLeft, bind, Except.bind, space, if_true, shift]

theorem trimLeft_stop {fuel : Nat} {m : List Byte} {b : Byte} (read : get m 0 = .ok b)
    (other : b ≠ ch ' ') : trimLeft (fuel + 1) m = .ok m := by
  simp only [trimLeft, bind, Except.bind, read, if_neg other]

theorem trimLeft_eq {m s : List Byte} {fuel : Nat} (h : Holds m s) (hfuel : s.length < fuel) :
    ∃ m', trimLeft fuel m = .ok m' ∧ Holds m' (s.dropWhile isSpace) := by
  induction s generalizing m fuel with
  | nil =>
    obtain ⟨fuel, rfl⟩ : ∃ k, fuel = k + 1 := ⟨fuel - 1, by simp at hfuel; omega⟩
    refine ⟨m, ?_, h⟩
    obtain ⟨rest, rfl⟩ := h.string
    exact trimLeft_stop (get_append (a := [])) (by decide)
  | cons b s ih =>
    obtain ⟨fuel, rfl⟩ : ∃ k, fuel = k + 1 := ⟨fuel - 1, by simp at hfuel; omega⟩
    have read : get m 0 = .ok b := by
      obtain ⟨rest, rfl⟩ := h.string
      exact get_append (a := [])
    by_cases space : b = ch ' '
    · obtain ⟨m', shift, h'⟩ := shiftLeft_delete (a := []) h
      rw [trimLeft_step (space ▸ read) shift, List.dropWhile_cons_of_pos (by simp [isSpace, space])]
      exact ih h' (by simp at hfuel; omega)
    · refine ⟨m, trimLeft_stop read space, ?_⟩
      rw [List.dropWhile_cons_of_neg (by simp [isSpace, space])]
      exact h

end Trim

section Rows

/-- Eight buffers with the given strings. -/
def HoldsRows (history : List (List Byte)) (e : Nat → List Byte) : Prop :=
  history.length = 8 ∧ ∀ i < 8, ∃ m, history[i]? = some m ∧ Holds m (e i)

variable {history : List (List Byte)} {e : Nat → List Byte}

theorem row_eq (h : HoldsRows history e) {i : Nat} (hi : i < 8) :
    ∃ m, row history i = .ok m ∧ Holds m (e i) := by
  obtain ⟨m, hm, holds⟩ := h.2 i hi
  refine ⟨m, ?_, holds⟩
  rw [row, if_neg (by omega), Int.toNat_natCast, hm]

theorem HoldsRows.set (h : HoldsRows history e) {i : Nat} (hi : i < 8) {m s : List Byte}
    (hm : Holds m s) : HoldsRows (history.set i m) (Function.update e i s) := by
  refine ⟨by rw [List.length_set, h.1], fun j hj => ?_⟩
  by_cases same : i = j
  · subst same
    refine ⟨m, List.getElem?_set_self (by rw [h.1]; exact hi), ?_⟩
    rw [Function.update_self]
    exact hm
  · rw [List.getElem?_set_ne same, Function.update_of_ne (Ne.symm same)]
    exact h.2 j hj

theorem shiftRows_eq {k : Nat} (h : HoldsRows history e) (hk : k < 8) :
    ∃ history', shiftRows k history = .ok history' ∧
      HoldsRows history' fun i => if 0 < i ∧ i ≤ k then e (i - 1) else e i := by
  induction k generalizing history e with
  | zero =>
    refine ⟨history, rfl, ?_⟩
    have same : (fun i => if 0 < i ∧ i ≤ 0 then e (i - 1) else e i) = e := by
      funext i
      rw [if_neg (by omega)]
    rw [same]
    exact h
  | succ k ih =>
    obtain ⟨src, hsrc, holds⟩ := row_eq h (i := k) (by omega)
    obtain ⟨dst, hdst, old⟩ := row_eq h hk
    obtain ⟨m, copied, holds'⟩ := strcpy_eq holds old
    obtain ⟨history', shifted, rows⟩ := ih (h.set hk holds') (by omega)
    refine ⟨history', ?_, ?_⟩
    · have hdst : row history (k + 1 : Nat) = .ok dst := hdst
      simp only [shiftRows, bind, Except.bind, hsrc]
      rw [show ((k : Int) + 1) = ((k + 1 : Nat) : Int) by rfl, hdst]
      simp only [copied]
      exact shifted
    · refine (congrArg (HoldsRows history') ?_).mp rows
      funext i
      by_cases moved : 0 < i ∧ i ≤ k
      · rw [if_pos moved, if_pos (by omega), Function.update_of_ne (by omega)]
      · rw [if_neg moved]
        by_cases new : i = k + 1
        · rw [new, Function.update_self, if_pos (by omega), Nat.add_sub_cancel]
        · rw [Function.update_of_ne new, if_neg (by omega)]

theorem saveLine_eq {m s : List Byte} (hm : Holds m s) (h : HoldsRows history e) :
    ∃ history', saveLine m history = .ok history' ∧
      HoldsRows history' (if s = [] ∨ s = e 0 then e else fun i => if i = 0 then s else e (i - 1)) := by
  have length := strlen_eq hm
  unfold saveLine
  by_cases empty : s = []
  · subst empty
    refine ⟨history, ?_, by rw [if_pos (.inl rfl)]; exact h⟩
    simp only [bind, Except.bind, length, List.length_nil, Nat.lt_irrefl, gt_iff_lt, if_false]
  obtain ⟨last, hlast, holds⟩ := row_eq h (i := 0) (by decide)
  have compared := strcmp_eq hm holds
  have positive : s.length > 0 := List.length_pos_iff.mpr empty
  simp only [bind, Except.bind, length, if_pos positive]
  have hlast : row history 0 = .ok last := hlast
  simp only [hlast, compared]
  by_cases same : s = e 0
  · refine ⟨history, by rw [if_pos (by simpa using same)], by rw [if_pos (.inr same)]; exact h⟩
  rw [if_neg (by simpa using same)]
  obtain ⟨shifted, hs, rows⟩ := shiftRows_eq h (k := 7) (by decide)
  obtain ⟨dst, hdst, old⟩ := row_eq rows (i := 0) (by decide)
  have hdst : row shifted 0 = .ok dst := hdst
  obtain ⟨copy, hc, new⟩ := strcpy_eq hm old
  simp only [hs, hdst, hc]
  refine ⟨_, rfl, ?_⟩
  have final := rows.set (i := 0) (by decide) new
  rw [if_neg (not_or.mpr ⟨empty, same⟩)]
  refine ⟨final.1, fun i hi => ?_⟩
  obtain ⟨m', hm', holds'⟩ := final.2 i hi
  refine ⟨m', hm', ?_⟩
  by_cases zero : i = 0
  · subst zero
    rw [Function.update_self] at holds'
    exact holds'
  · rw [Function.update_of_ne zero, if_pos (by omega)] at holds'
    change Holds m' (if i = 0 then s else e (i - 1))
    rw [if_neg zero]
    exact holds'

end Rows

end MultiZone.Readline
