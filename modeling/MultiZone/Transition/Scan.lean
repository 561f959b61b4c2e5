/-! A search through a list that remembers something of what it has passed. -/
namespace Transition

universe u v

inductive Look (σ : Type u) where
  | stop
  | found
  | next (s : σ)

def scan {σ : Type u} {α : Type v} (look : σ → α → Look σ) : σ → List α → Option Nat
  | _, [] => none
  | s, a :: rest =>
    match look s a with
    | .stop => none
    | .found => some 0
    | .next s => (scan look s rest).map (· + 1)

section Scan

variable {σ : Type u} {α : Type v} {look : σ → α → Look σ} {I : List α → σ → Prop}
  {Stop : α → Prop} {Fits : List α → α → Prop} {as before : List α} {s : σ} {i : Nat}

/-- What the state tells of the elements that have been passed, the last of them first. -/
structure Tracks (look : σ → α → Look σ) (I : List α → σ → Prop) (Stop : α → Prop)
    (Fits : List α → α → Prop) : Prop where
  stop : ∀ {before s a}, I before s → look s a = .stop → Stop a
  found : ∀ {before s a}, I before s → look s a = .found → ¬ Stop a ∧ Fits before a
  next : ∀ {before s a t}, I before s → look s a = .next t →
    ¬ Stop a ∧ ¬ Fits before a ∧ I (a :: before) t

/-- The element is the first one that fits, and the search is not stopped before it. -/
def First (Stop : α → Prop) (Fits : List α → α → Prop) (before as : List α) (i : Nat) : Prop :=
  (∃ a, as[i]? = some a ∧ ¬ Stop a ∧ Fits ((as.take i).reverse ++ before) a) ∧
    ∀ j < i, ∀ a, as[j]? = some a → ¬ Stop a ∧ ¬ Fits ((as.take j).reverse ++ before) a

theorem first_cons {a : α} (passed : ¬ Stop a ∧ ¬ Fits before a) :
    First Stop Fits before (a :: as) (i + 1) ↔ First Stop Fits (a :: before) as i := by
  have later : ∀ j, ((a :: as).take (j + 1)).reverse ++ before =
      (as.take j).reverse ++ (a :: before) := by
    intro j
    rw [List.take_succ_cons, List.reverse_cons, List.append_assoc]
    rfl
  unfold First
  rw [later]
  apply and_congr Iff.rfl
  constructor
  · intro all j low b get
    rw [← later]
    exact all (j + 1) (Nat.succ_lt_succ low) b get
  · intro all j low b get
    cases j with
    | zero =>
      cases get
      exact passed
    | succ j =>
      rw [later]
      exact all j (Nat.lt_of_succ_lt_succ low) b get

theorem scan_first (t : Tracks look I Stop Fits) (start : I before s) :
    scan look s as = some i ↔ First Stop Fits before as i := by
  induction as generalizing before s i with
  | nil =>
    constructor
    · intro none'
      cases none'
    · rintro ⟨⟨a, get, -⟩, -⟩
      cases get
  | cons a rest ih =>
    rw [scan]
    cases looked : look s a with
    | stop =>
      have stops := t.stop start looked
      constructor
      · intro none'
        cases none'
      · rintro ⟨⟨b, get, goes, -⟩, all⟩
        cases i with
        | zero =>
          cases get
          exact absurd stops goes
        | succ i => exact absurd stops (all 0 i.succ_pos a rfl).1
    | found =>
      have fits := t.found start looked
      constructor
      · intro same
        cases same
        exact ⟨⟨a, rfl, fits⟩, fun j low => absurd low (Nat.not_lt_zero j)⟩
      · rintro ⟨-, all⟩
        cases i with
        | zero => rfl
        | succ i => exact absurd fits.2 (all 0 i.succ_pos a rfl).2
    | next s' =>
      obtain ⟨goes, unlike, later⟩ := t.next start looked
      cases i with
      | zero =>
        constructor
        · intro same
          obtain ⟨i, -, wrong⟩ := Option.map_eq_some_iff.mp same
          cases wrong
        · rintro ⟨⟨b, get, -, fits⟩, -⟩
          cases get
          exact absurd fits unlike
      | succ i =>
        rw [first_cons ⟨goes, unlike⟩, ← ih later]
        constructor
        · intro same
          obtain ⟨j, found, next⟩ := Option.map_eq_some_iff.mp same
          cases next
          exact found
        · intro found
          exact congrArg (Option.map (· + 1)) found

theorem first_congr {Fits' : List α → α → Prop}
    (same : ∀ j a, as[j]? = some a →
      (Fits ((as.take j).reverse ++ before) a ↔ Fits' ((as.take j).reverse ++ before) a)) :
    First Stop Fits before as i ↔ First Stop Fits' before as i := by
  unfold First
  apply and_congr
  · apply exists_congr
    intro a
    apply and_congr_right
    intro get
    rw [same i a get]
  · apply forall_congr'
    intro j
    apply forall_congr'
    intro _
    apply forall_congr'
    intro a
    apply forall_congr'
    intro get
    rw [same j a get]

theorem first_unique {j : Nat} (one : First Stop Fits before as i)
    (two : First Stop Fits before as j) :
    i = j := by
  obtain ⟨⟨a, get, -, fits⟩, earlier⟩ := one
  obtain ⟨⟨b, get', -, fits'⟩, earlier'⟩ := two
  rcases Nat.lt_trichotomy i j with less | same | more
  · exact absurd fits (earlier' i less a get).2
  · exact same
  · exact absurd fits' (earlier j more b get').2

theorem First.element {a : α} (first : First Stop Fits before as i) (get : as[i]? = some a) :
    ¬ Stop a ∧ Fits ((as.take i).reverse ++ before) a := by
  obtain ⟨⟨b, get', found⟩, -⟩ := first
  cases get.symm.trans get'
  exact found

end Scan

end Transition
