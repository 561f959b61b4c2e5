import MultiZone.Transition.Machine

/-! A channel that holds at most one message, with the histories of what was
put in and what was taken out. -/
namespace Transition

structure Channel (α : Type) where
  cell : Option α
  published : List α
  consumed : List α

inductive ChannelOp (α : Type) where
  | put (a : α)
  | take

namespace Channel

variable {α : Type}

def machine (α : Type) : Machine (Channel α) (ChannelOp α) where
  initial := ⟨none, [], []⟩
  step s
    | .put a =>
      match s.cell with
      | none => some ⟨some a, s.published ++ [a], s.consumed⟩
      | some _ => none
    | .take => s.cell.map fun a => ⟨none, s.published, s.consumed ++ [a]⟩

/-- What was published is what was consumed and then what the cell holds. -/
def Balanced (s : Channel α) : Prop := s.published = s.consumed ++ s.cell.toList

theorem initial_balanced : (machine α).initial.Balanced := rfl

theorem step_balanced (s : Channel α) (op : ChannelOp α) (t : Channel α) (h : s.Balanced)
    (hs : (machine α).step s op = some t) : t.Balanced := by
  cases hc : s.cell with
  | none =>
    cases op with
    | put a =>
      simp only [machine, hc, Option.some.injEq] at hs
      subst hs
      simpa [Balanced, hc] using h
    | take => simp [machine, hc] at hs
  | some b =>
    cases op with
    | put a => simp [machine, hc] at hs
    | take =>
      simp only [machine, hc, Option.map_some, Option.some.injEq] at hs
      subst hs
      simpa [Balanced, hc] using h

theorem run_balanced {ops : List (ChannelOp α)} {s : Channel α}
    (hr : (machine α).run (machine α).initial ops = some s) : s.Balanced :=
  Machine.invariant (I := Balanced) step_balanced initial_balanced hr

/-- In order, none lost, none twice, and never more than one on the way. -/
theorem Balanced.exactly_once {s : Channel α} (h : s.Balanced) :
    s.consumed <+: s.published ∧ s.published.length ≤ s.consumed.length + 1 := by
  unfold Balanced at h
  refine ⟨⟨s.cell.toList, h.symm⟩, ?_⟩
  rw [h]
  cases s.cell <;> simp

end Channel

end Transition
