/-! Reactive systems: every input is taken, and answered with a list of outputs.
Two states are told apart only by the outputs that some later inputs give. -/
namespace Transition

universe u v w

structure Reactive (S : Type u) (I : Type v) (O : Type w) where
  react : S → I → S × List O

namespace Reactive

variable {S : Type u} {I : Type v} {O : Type w}

def after (m : Reactive S I O) : S → List I → S
  | s, [] => s
  | s, i :: rest => m.after (m.react s i).1 rest

def outputs (m : Reactive S I O) : S → List I → List O
  | _, [] => []
  | s, i :: rest => (m.react s i).2 ++ m.outputs (m.react s i).1 rest

def Indistinguishable (m : Reactive S I O) (s t : S) : Prop :=
  ∀ inputs, m.outputs s inputs = m.outputs t inputs

theorem after_append (m : Reactive S I O) (s : S) (inputs later : List I) :
    m.after s (inputs ++ later) = m.after (m.after s inputs) later := by
  induction inputs generalizing s with
  | nil => rfl
  | cons i rest ih => exact ih (m.react s i).1

theorem outputs_append (m : Reactive S I O) (s : S) (inputs later : List I) :
    m.outputs s (inputs ++ later) = m.outputs s inputs ++ m.outputs (m.after s inputs) later := by
  induction inputs generalizing s with
  | nil => rfl
  | cons i rest ih =>
    simp only [List.cons_append, outputs, ih, List.append_assoc]
    rfl

variable {m : Reactive S I O} {s t : S}

theorem Indistinguishable.after (h : m.Indistinguishable s t) (inputs : List I) :
    m.Indistinguishable (m.after s inputs) (m.after t inputs) := by
  intro later
  have whole := h (inputs ++ later)
  rw [outputs_append, outputs_append, h inputs] at whole
  exact List.append_cancel_left whole

theorem Indistinguishable.react (h : m.Indistinguishable s t) (i : I) :
    (m.react s i).2 = (m.react t i).2 := by
  have one := h [i]
  simpa only [outputs, List.append_nil] using one

/-- A relation that every input preserves, with equal outputs, relates only states
that cannot be told apart. -/
theorem indistinguishable_of_bisimulation {R : S → S → Prop}
    (keep : ∀ s t i, R s t → (m.react s i).2 = (m.react t i).2 ∧
      R (m.react s i).1 (m.react t i).1)
    (related : R s t) : m.Indistinguishable s t := by
  intro inputs
  induction inputs generalizing s t with
  | nil => rfl
  | cons i rest ih =>
    obtain ⟨same, next⟩ := keep s t i related
    simp only [outputs, same, ih next]

end Reactive

end Transition
