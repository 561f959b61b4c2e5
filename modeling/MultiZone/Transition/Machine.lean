/-! Transition systems whose step is a partial function of a state and a label.
A label carries whatever the environment chooses at that step, so a list of
labels fixes one run and a theorem about every list is about every run. -/
namespace Transition

universe u v

structure Machine (S : Type u) (A : Type v) where
  initial : S
  step : S → A → Option S

namespace Machine

variable {S : Type u} {A : Type v}

/-- The state the labels lead to; none when some label is not enabled. -/
def run (m : Machine S A) : S → List A → Option S
  | s, [] => some s
  | s, a :: rest => (m.step s a).bind fun t => m.run t rest

/-- Every step taken along the labels meets the condition. -/
def Obeys (m : Machine S A) (C : S → A → Prop) : S → List A → Prop
  | _, [] => True
  | s, a :: rest =>
    match m.step s a with
    | none => True
    | some t => C s a ∧ m.Obeys C t rest

/-- The property holds in every state passed along the labels, ends included. -/
def Always (m : Machine S A) (P : S → Prop) : S → List A → Prop
  | s, [] => P s
  | s, a :: rest =>
    P s ∧ match m.step s a with
    | none => True
    | some t => m.Always P t rest

instance decidableObeys (m : Machine S A) (C : S → A → Prop) [∀ s a, Decidable (C s a)] :
    ∀ s as, Decidable (m.Obeys C s as)
  | _, [] => .isTrue trivial
  | s, a :: rest =>
    match h : m.step s a with
    | none => .isTrue (by simp only [Obeys, h])
    | some t =>
      have : Decidable (m.Obeys C t rest) := decidableObeys m C t rest
      decidable_of_iff (C s a ∧ m.Obeys C t rest) (by simp only [Obeys, h])

theorem run_cons {m : Machine S A} {s u : S} {a : A} {rest : List A} :
    m.run s (a :: rest) = some u ↔ ∃ t, m.step s a = some t ∧ m.run t rest = some u := by
  simp only [run, Option.bind_eq_some_iff]

theorem run_append {m : Machine S A} {s t : S} {as : List A} (rest : List A)
    (hs : m.run s as = some t) : m.run s (as ++ rest) = m.run t rest := by
  induction as generalizing s with
  | nil => rw [Option.some.inj hs, List.nil_append]
  | cons a as ih =>
    obtain ⟨s', step, hs'⟩ := run_cons.mp hs
    rw [← ih hs', List.cons_append, run, step, Option.bind_some]

theorem obeys_cons {m : Machine S A} {C : S → A → Prop} {s t : S} {a : A} {rest : List A}
    (hs : m.step s a = some t) : m.Obeys C s (a :: rest) ↔ C s a ∧ m.Obeys C t rest := by
  simp only [Obeys, hs]

theorem always_cons {m : Machine S A} {P : S → Prop} {s t : S} {a : A} {rest : List A}
    (hs : m.step s a = some t) : m.Always P s (a :: rest) ↔ P s ∧ m.Always P t rest := by
  simp only [Always, hs]

theorem always_head {m : Machine S A} {P : S → Prop} {s : S} {as : List A}
    (h : m.Always P s as) : P s := by
  cases as with
  | nil => exact h
  | cons a rest => exact h.1

theorem always_run {m : Machine S A} {P : S → Prop} {as : List A} {s t : S}
    (h : m.Always P s as) (hr : m.run s as = some t) : P t := by
  induction as generalizing s with
  | nil => exact Option.some.inj hr ▸ h
  | cons a rest ih =>
    obtain ⟨u, hu, hrest⟩ := run_cons.mp hr
    exact ih ((always_cons hu).mp h).2 hrest

theorem obeys_of_mem {m : Machine S A} {C : S → A → Prop} {as : List A} {s : S}
    (all : ∀ a ∈ as, ∀ s, C s a) : m.Obeys C s as := by
  induction as generalizing s with
  | nil => trivial
  | cons a rest ih =>
    cases hs : m.step s a with
    | none => simp only [Obeys, hs]
    | some t =>
      have later : ∀ b ∈ rest, ∀ s, C s b := fun b hb => all b (List.mem_cons_of_mem a hb)
      exact (obeys_cons hs).mpr ⟨all a List.mem_cons_self s, ih later⟩

theorem obeys_of_forall {m : Machine S A} {C : S → A → Prop} (all : ∀ s a, C s a)
    (as : List A) (s : S) : m.Obeys C s as :=
  obeys_of_mem fun a _ s => all s a

/-- The labels lead from one state to another by steps that meet the condition. -/
def Leads (m : Machine S A) (C : S → A → Prop) (s : S) (as : List A) (t : S) : Prop :=
  m.Obeys C s as ∧ m.run s as = some t

theorem Leads.cons {m : Machine S A} {C : S → A → Prop} {s t u : S} {a : A} {as : List A}
    (meets : C s a) (hs : m.step s a = some t) (later : m.Leads C t as u) :
    m.Leads C s (a :: as) u :=
  ⟨(obeys_cons hs).mpr ⟨meets, later.1⟩, run_cons.mpr ⟨t, hs, later.2⟩⟩

theorem Leads.append {m : Machine S A} {C : S → A → Prop} {s t u : S} {as bs : List A}
    (first : m.Leads C s as t) (second : m.Leads C t bs u) : m.Leads C s (as ++ bs) u := by
  induction as generalizing s with
  | nil =>
    cases Option.some.inj first.2
    exact second
  | cons a as ih =>
    obtain ⟨s', hs, hr⟩ := run_cons.mp first.2
    obtain ⟨meets, obeys⟩ := (obeys_cons hs).mp first.1
    exact Leads.cons meets hs (ih ⟨obeys, hr⟩)

def Reaches (m : Machine S A) (C : S → A → Prop) (s t : S) : Prop := ∃ as, m.Leads C s as t

theorem Reaches.trans {m : Machine S A} {C : S → A → Prop} {s t u : S}
    (first : m.Reaches C s t) (second : m.Reaches C t u) : m.Reaches C s u :=
  first.elim fun _ before => second.elim fun _ later => ⟨_, before.append later⟩

/-- What an inductive property of the steps that meet the condition gives at the
end of a run all of whose steps meet it. -/
theorem invariant_of_obeys {m : Machine S A} {C : S → A → Prop} {I : S → Prop}
    (keep : ∀ s a t, I s → C s a → m.step s a = some t → I t) {as : List A} {s u : S}
    (base : I s) (obeys : m.Obeys C s as) (hr : m.run s as = some u) : I u := by
  induction as generalizing s with
  | nil => exact Option.some.inj hr ▸ base
  | cons a rest ih =>
    obtain ⟨t, ht, hu⟩ := run_cons.mp hr
    have h := (obeys_cons ht).mp obeys
    exact ih (keep s a t base h.1 ht) h.2 hu

theorem invariant {m : Machine S A} {I : S → Prop}
    (keep : ∀ s a t, I s → m.step s a = some t → I t) {as : List A} {s u : S}
    (base : I s) (hr : m.run s as = some u) : I u :=
  invariant_of_obeys (C := fun _ _ => True) (fun s a t h _ => keep s a t h) base
    (obeys_of_forall (fun _ _ => trivial) as s) hr

/-- One condition implies another along a run, given an invariant of the first. -/
theorem obeys_mono {m : Machine S A} {C D : S → A → Prop} {I : S → Prop}
    (keep : ∀ s a t, I s → C s a → m.step s a = some t → I t)
    (sub : ∀ s a t, I s → C s a → m.step s a = some t → D s a) {as : List A} {s : S}
    (base : I s) (obeys : m.Obeys C s as) : m.Obeys D s as := by
  induction as generalizing s with
  | nil => trivial
  | cons a rest ih =>
    cases hs : m.step s a with
    | none => simp only [Obeys, hs]
    | some t =>
      have h := (obeys_cons hs).mp obeys
      exact (obeys_cons hs).mpr ⟨sub s a t base h.1 hs, ih (keep s a t base h.1 hs) h.2⟩

/-- The machine that remembers something of the steps it has taken. -/
def withHistory {H : Type u} (m : Machine S A) (start : H) (next : S → H → A → H) :
    Machine (S × H) A where
  initial := (m.initial, start)
  step p a := (m.step p.1 a).map fun t => (t, next p.1 p.2 a)

theorem step_withHistory {H : Type u} {m : Machine S A} {start : H} {next : S → H → A → H}
    {p : S × H} {a : A} {t : S} (hs : m.step p.1 a = some t) :
    (m.withHistory start next).step p a = some (t, next p.1 p.2 a) := by
  simp only [withHistory, hs, Option.map_some]

/-- A property is kept along a run exactly by the steps that meet a condition,
once the condition decides each single step. The auxiliary invariant need only
survive the steps that keep the property. -/
theorem always_iff_obeys {m : Machine S A} {C : S → A → Prop} {P J : S → Prop}
    (keep : ∀ s a t, P s → J s → C s a → m.step s a = some t → J t)
    (exact_step : ∀ s a t, P s → J s → m.step s a = some t → (P t ↔ C s a))
    (as : List A) {s : S} (hp : P s) (hj : J s) : m.Always P s as ↔ m.Obeys C s as := by
  induction as generalizing s with
  | nil => exact ⟨fun _ => trivial, fun _ => hp⟩
  | cons a rest ih =>
    cases hs : m.step s a with
    | none => simp only [Always, Obeys, hs, hp, and_self]
    | some t =>
      rw [always_cons hs, obeys_cons hs]
      have h := exact_step s a t hp hj hs
      constructor
      · intro always
        have hc := h.mp (always_head always.2)
        exact ⟨hc, (ih (h.mpr hc) (keep s a t hp hj hc hs)).mp always.2⟩
      · intro obeys
        have ht := h.mpr obeys.1
        exact ⟨hp, (ih ht (keep s a t hp hj obeys.1 hs)).mpr obeys.2⟩

end Machine

section Simulation

variable {S T : Type u} {A B : Type v}

/-- Forward simulation by an abstraction function: under an invariant of the
concrete machine each of its steps is one abstract step or leaves the abstract
state as it is. -/
theorem simulation {m : Machine S A} {n : Machine T B} {I : S → Prop} (abs : S → T)
    (label : S → A → Option B)
    (keep : ∀ s a t, I s → m.step s a = some t → I t)
    (match_none : ∀ s a t, I s → m.step s a = some t → label s a = none → abs t = abs s)
    (match_some : ∀ s a t b, I s → m.step s a = some t → label s a = some b →
      n.step (abs s) b = some (abs t))
    {as : List A} {s u : S} (base : I s) (hr : m.run s as = some u) :
    ∃ bs, n.run (abs s) bs = some (abs u) := by
  induction as generalizing s with
  | nil => exact ⟨[], congrArg (fun x => some (abs x)) (Option.some.inj hr)⟩
  | cons a rest ih =>
    obtain ⟨t, ht, hu⟩ := Machine.run_cons.mp hr
    obtain ⟨bs, hb⟩ := ih (keep s a t base ht) hu
    cases hl : label s a with
    | none => exact ⟨bs, match_none s a t base ht hl ▸ hb⟩
    | some b =>
      exact ⟨b :: bs, Machine.run_cons.mpr ⟨abs t, match_some s a t b base ht hl, hb⟩⟩

/-- Simulation by a relation: a machine that can follow each step of the other
follows its runs. -/
theorem simulation_follow {m : Machine S A} {n : Machine T A} {R : S → T → Prop}
    (follow : ∀ s t a s', R s t → m.step s a = some s' → ∃ t', n.step t a = some t' ∧ R s' t')
    {as : List A} {s s' : S} {t : T} (base : R s t) (hr : m.run s as = some s') :
    ∃ t', n.run t as = some t' ∧ R s' t' := by
  induction as generalizing s t with
  | nil => exact ⟨t, rfl, Option.some.inj hr ▸ base⟩
  | cons a rest ih =>
    obtain ⟨s₁, hs, hrest⟩ := Machine.run_cons.mp hr
    obtain ⟨t₁, ht, related⟩ := follow s t a s₁ base hs
    obtain ⟨t', hrun, final⟩ := ih related hrest
    exact ⟨t', Machine.run_cons.mpr ⟨t₁, ht, hrun⟩, final⟩

end Simulation

end Transition
