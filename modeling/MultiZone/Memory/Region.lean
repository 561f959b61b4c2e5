/-! Memory that is filled by block stores, and the regions it is divided into. -/
namespace Memory

universe u v

structure Region where
  base : Nat
  length : Nat

namespace Region

def Holds (r : Region) (a : Nat) : Prop := r.base ≤ a ∧ a < r.base + r.length

def Apart (r s : Region) : Prop := r.base + r.length ≤ s.base ∨ s.base + s.length ≤ r.base

instance (r : Region) (a : Nat) : Decidable (r.Holds a) := inferInstanceAs (Decidable (_ ∧ _))

instance (r s : Region) : Decidable (r.Apart s) := inferInstanceAs (Decidable (_ ∨ _))

theorem Apart.outside {r s : Region} {a : Nat} (apart : r.Apart s) (inside : r.Holds a) :
    ¬ s.Holds a := by
  intro holds
  unfold Apart Holds at *
  omega

end Region

variable {α : Type u} {ι : Type v}

/-- The memory after the values have been stored one after another from `a` on. -/
def store (mem : Nat → α) (a : Nat) (values : List α) : Nat → α :=
  fun x => if a ≤ x then (values[x - a]?).getD (mem x) else mem x

theorem store_inside {mem : Nat → α} {a i : Nat} {values : List α} {v : α}
    (h : values[i]? = some v) : store mem a values (a + i) = v := by
  simp only [store, Nat.le_add_right, if_true, Nat.add_sub_cancel_left, h, Option.getD_some]

theorem store_outside {mem : Nat → α} {a x : Nat} {values : List α}
    (h : ∀ i, values[i]? ≠ none → x ≠ a + i) : store mem a values x = mem x := by
  unfold store
  split
  · rename_i above
    cases hv : values[x - a]? with
    | none => rfl
    | some v => exact absurd (by omega) (h (x - a) (by simp [hv]))
  · rfl

theorem store_apart {mem : Nat → α} {a x : Nat} {values : List α}
    (apart : x < a ∨ a + values.length ≤ x) : store mem a values x = mem x := by
  apply store_outside
  intro i hi same
  have bound := Nat.lt_of_not_le fun far => hi (List.getElem?_eq_none far)
  omega

def window (mem : Nat → α) (a n : Nat) : List α := (List.range n).map fun i => mem (a + i)

theorem window_length (mem : Nat → α) (a n : Nat) : (window mem a n).length = n := by
  rw [window, List.length_map, List.length_range]

theorem window_get (mem : Nat → α) {a n i : Nat} (inside : i < n) :
    (window mem a n)[i]? = some (mem (a + i)) := by
  rw [window, List.getElem?_map, List.getElem?_range inside, Option.map_some]

theorem window_take (mem : Nat → α) {a n k : Nat} (short : k ≤ n) :
    (window mem a n).take k = window mem a k := by
  rw [window, ← List.map_take, List.take_range, Nat.min_eq_left short, window]

theorem window_store_inside {mem : Nat → α} {a n k : Nat} {values : List α}
    (fits : k + values.length ≤ n) : window (store mem (a + k) values) a n =
      (window mem a n).take k ++ values ++ (window mem a n).drop (k + values.length) := by
  have before : ((window mem a n).take k).length = k := by
    rw [List.length_take, window_length]
    omega
  apply List.ext_getElem?
  intro i
  rcases Nat.lt_or_ge i n with inside | outside
  · rw [window_get _ inside, List.append_assoc]
    rcases Nat.lt_or_ge i k with low | high
    · rw [List.getElem?_append_left (by omega), List.getElem?_take_of_lt low,
        window_get _ inside, store_apart (.inl (by omega))]
    · rw [List.getElem?_append_right (by omega), before]
      rcases Nat.lt_or_ge (i - k) values.length with stored | behind
      · rw [List.getElem?_append_left stored, List.getElem?_eq_getElem stored,
          show a + i = a + k + (i - k) by omega, store_inside (List.getElem?_eq_getElem stored)]
      · rw [List.getElem?_append_right behind, List.getElem?_drop,
          show k + values.length + (i - k - values.length) = i by omega, window_get _ inside]
        apply congrArg some
        apply store_apart
        omega
  · rw [List.getElem?_eq_none (by rw [window_length]; exact outside), List.getElem?_eq_none]
    simp only [List.length_append, before, List.length_drop, window_length]
    omega

theorem window_store_outside {mem : Nat → α} {a b n : Nat} {values : List α}
    (apart : b + values.length ≤ a ∨ a + n ≤ b) :
    window (store mem b values) a n = window mem a n := by
  apply List.map_congr_left
  intro i hi
  have inside := List.mem_range.mp hi
  apply store_apart
  omega

/-- A block store and the party it is made for. -/
structure Store (ι : Type v) (α : Type u) where
  tag : ι
  addr : Nat
  values : List α

def Store.Touches (s : Store ι α) (x : Nat) : Prop := ∃ i v, s.values[i]? = some v ∧ x = s.addr + i

def replay (mem : Nat → α) (log : List (Store ι α)) : Nat → α :=
  log.foldl (fun mem s => store mem s.addr s.values) mem

theorem replay_append (mem : Nat → α) (log log' : List (Store ι α)) :
    replay mem (log ++ log') = replay (replay mem log) log' :=
  List.foldl_append

theorem replay_untouched {mem : Nat → α} {log : List (Store ι α)} {x : Nat}
    (h : ∀ s ∈ log, ¬ s.Touches x) : replay mem log x = mem x := by
  induction log generalizing mem with
  | nil => rfl
  | cons s log ih =>
    have rest : replay mem (s :: log) x = store mem s.addr s.values x :=
      ih fun t ht => h t (List.mem_cons_of_mem s ht)
    refine rest.trans (store_outside fun i hi same => ?_)
    obtain ⟨v, hv⟩ := Option.ne_none_iff_exists'.mp hi
    exact h s List.mem_cons_self ⟨i, v, hv, same⟩

end Memory
