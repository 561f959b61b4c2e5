import Mathlib.Data.List.Destutter

/-! The latest entries of a log that grows at its head, where an entry that only
repeats the one before it does not count. -/
namespace Editing

universe u

variable {α : Type u} [DecidableEq α]

def recent (n : Nat) (log : List α) : List α := (log.destutter (· ≠ ·)).take n

theorem destutter_cons (x : α) (log : List α) : (x :: log).destutter (· ≠ ·) =
    if log.head? = some x then log.destutter (· ≠ ·) else x :: log.destutter (· ≠ ·) := by
  cases log with
  | nil => rfl
  | cons y rest =>
    rw [List.destutter_cons_cons, List.head?_cons]
    by_cases same : x = y
    · subst same
      rw [if_neg (not_not.mpr rfl), if_pos rfl]
      rfl
    · rw [if_pos same, if_neg fun repeated => same (Option.some.inj repeated).symm]
      rfl

theorem head_destutter (log : List α) : (log.destutter (· ≠ ·)).head? = log.head? := by
  induction log with
  | nil => rfl
  | cons x rest ih =>
    rw [destutter_cons]
    split
    · rename_i repeated
      rw [ih, repeated]
      rfl
    · rfl

theorem head_recent {n : Nat} (some : 0 < n) (log : List α) :
    (recent n log).head? = log.head? := by
  rw [recent, List.head?_take, if_neg (Nat.ne_of_gt some), head_destutter]

/-- A new entry pushes the oldest one out, unless it is a repetition. -/
theorem recent_cons (n : Nat) (x : α) (log : List α) : recent n (x :: log) =
    if log.head? = some x then recent n log else (x :: recent n log).take n := by
  unfold recent
  rw [destutter_cons]
  split
  · rfl
  · cases n with
    | zero => rfl
    | succ n =>
      rw [List.take_succ_cons, List.take_succ_cons, List.take_take, Nat.min_eq_left n.le_succ]

theorem recent_isChain (n : Nat) (log : List α) : (recent n log).IsChain (· ≠ ·) :=
  (List.isChain_destutter _ log).take n

end Editing
