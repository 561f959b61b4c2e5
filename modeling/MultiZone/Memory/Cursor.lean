import MultiZone.Memory.Region
import Mathlib.Algebra.GroupWithZero.Nat

/-! A sequence that is read from the front on, piece by piece. A call may fail with a part of
what it was to give; then nothing more is given. -/
namespace Memory

universe u v

variable {α : Type u} {ε : Type v}

theorem window_append (mem : Nat → α) (a m n : Nat) :
    window mem a m ++ window mem (a + m) n = window mem a (m + n) := by
  rw [window, window, window, List.range_add, List.map_append, List.map_map]
  congr 1
  apply List.map_congr_left
  intro i _
  rw [Function.comp, Nat.add_assoc]

theorem store_nil (mem : Nat → α) (a : Nat) : store mem a [] = mem :=
  funext fun _ => store_outside fun _ some' => absurd rfl some'

theorem store_add (mem : Nat → α) (a i : Nat) (values : List α) :
    store mem a values (a + i) = (values[i]?).getD (mem (a + i)) := by
  rw [store, if_pos (Nat.le_add_right a i), Nat.add_sub_cancel_left]

theorem store_cons (mem : Nat → α) (a : Nat) (v : α) (values : List α) :
    store (store mem a [v]) (a + 1) values = store mem a (v :: values) := by
  funext x
  rcases Nat.lt_trichotomy x a with below | rfl | above
  · rw [store_apart (.inl (Nat.lt_succ_of_lt below)), store_apart (.inl below),
      store_apart (.inl below)]
  · rw [store_apart (.inl (Nat.lt_succ_self x))]
    exact (store_inside rfl : store mem x [v] (x + 0) = v).trans
      (store_inside rfl : store mem x (v :: values) (x + 0) = v).symm
  · obtain ⟨i, rfl⟩ := Nat.exists_eq_add_of_le above
    have apart : store mem a [v] (a + 1 + i) = mem (a + 1 + i) :=
      store_apart (.inr (Nat.le_add_right _ _))
    rw [Nat.succ_eq_add_one, store_add, apart, Nat.add_assoc, Nat.add_comm 1 i, store_add,
      List.getElem?_cons_succ]

structure Cursor (ε : Type v) where
  pos : Nat
  failed : Option ε

structure Outcome (ε : Type v) (α : Type u) where
  failed : Option ε
  values : List α

/-- A call for `n` of the values that begin at the cursor. -/
inductive Call (content : Nat → α) (size : Nat) :
    Cursor ε → Nat → Outcome ε α → Cursor ε → Prop
  | whole {pos n : Nat} : Call content size ⟨pos, none⟩ n
      ⟨none, window content pos (min n (size - pos))⟩ ⟨pos + min n (size - pos), none⟩
  | part {pos n k : Nat} {e : ε} (short : k ≤ min n (size - pos)) (pos' : Nat) :
      Call content size ⟨pos, none⟩ n ⟨some e, window content pos k⟩ ⟨pos', some e⟩
  | stuck {pos n : Nat} {e : ε} : Call content size ⟨pos, some e⟩ n ⟨some e, []⟩ ⟨pos, some e⟩

inductive Calls (content : Nat → α) (size : Nat) :
    Cursor ε → List Nat → List (Outcome ε α) → Cursor ε → Prop
  | nil {c : Cursor ε} : Calls content size c [] [] c
  | cons {c c₁ c₂ : Cursor ε} {n : Nat} {o : Outcome ε α} {ns : List Nat}
      {os : List (Outcome ε α)} (first : Call content size c n o c₁)
      (rest : Calls content size c₁ ns os c₂) : Calls content size c (n :: ns) (o :: os) c₂

def given (os : List (Outcome ε α)) : List α := os.flatMap Outcome.values

section Calls

variable {content : Nat → α} {size : Nat} {c c' : Cursor ε} {ns : List Nat}
  {os : List (Outcome ε α)}

/-- After a failure every call fails alike, and gives nothing. -/
theorem Calls.stuck {pos : Nat} {e : ε} (calls : Calls content size ⟨pos, some e⟩ ns os c') :
    c' = ⟨pos, some e⟩ ∧ os = List.replicate ns.length ⟨some e, []⟩ := by
  induction ns generalizing os with
  | nil =>
    cases calls
    exact ⟨rfl, rfl⟩
  | cons n ns ih =>
    cases calls with
    | cons first rest =>
      cases first
      obtain ⟨same, replicated⟩ := ih rest
      exact ⟨same, by rw [replicated, List.length_cons, List.replicate_succ]⟩

theorem given_replicate (n : Nat) (e : ε) :
    given (List.replicate n (⟨some e, []⟩ : Outcome ε α)) = [] := by
  induction n with
  | zero => rfl
  | succ n ih => rw [List.replicate_succ, given, List.flatMap_cons, List.nil_append, ← given, ih]

theorem Calls.given_eq {pos : Nat} (calls : Calls content size ⟨pos, none⟩ ns os c') :
    ∃ k ≤ min ns.sum (size - pos), given os = window content pos k ∧
      (c'.failed = none → k = min ns.sum (size - pos)) := by
  induction ns generalizing pos os with
  | nil =>
    cases calls
    exact ⟨0, Nat.zero_le _, rfl, fun _ => by rw [List.sum_nil, Nat.zero_min]⟩
  | cons n ns ih =>
    rw [List.sum_cons]
    cases calls with
    | @cons _ _ _ _ _ _ os first rest =>
      cases first with
      | whole =>
        obtain ⟨k, short, same, all⟩ := ih rest
        refine ⟨min n (size - pos) + k, by omega, ?_, fun ok => ?_⟩
        · rw [← window_append, ← same]
          rfl
        · have more := all ok
          omega
      | @part _ _ k e short pos' =>
        obtain ⟨rfl, rfl⟩ := rest.stuck
        refine ⟨k, by omega, ?_, fun ok => nomatch ok⟩
        rw [given, List.flatMap_cons, ← given, given_replicate, List.append_nil]

end Calls

end Memory
