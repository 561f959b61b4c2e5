import MultiZone.Transition.Machine

/-! A first-in first-out queue, with the histories of what was put in and what
was taken out. -/
namespace Transition

structure Queue (α : Type) where
  contents : List α
  accepted : List α
  fetched : List α

inductive QueueOp (α : Type) where
  | put (as : List α)
  | take

namespace Queue

variable {α : Type}

def machine (α : Type) : Machine (Queue α) (QueueOp α) where
  initial := ⟨[], [], []⟩
  step s
    | .put as => some ⟨s.contents ++ as, s.accepted ++ as, s.fetched⟩
    | .take =>
      match s.contents with
      | [] => none
      | a :: rest => some ⟨rest, s.accepted, s.fetched ++ [a]⟩

/-- What was put in is what was taken out and then what is still inside. -/
def Balanced (s : Queue α) : Prop := s.accepted = s.fetched ++ s.contents

theorem initial_balanced : (machine α).initial.Balanced := rfl

theorem step_balanced (s : Queue α) (op : QueueOp α) (t : Queue α) (h : s.Balanced)
    (hs : (machine α).step s op = some t) : t.Balanced := by
  unfold Balanced at h ⊢
  cases op with
  | put as =>
    cases Option.some.inj hs
    rw [h, List.append_assoc]
  | take =>
    simp only [machine] at hs
    split at hs
    · cases hs
    · rename_i a rest hc
      cases Option.some.inj hs
      rw [h, hc, List.append_assoc]
      rfl

theorem run_balanced {ops : List (QueueOp α)} {s : Queue α}
    (hr : (machine α).run (machine α).initial ops = some s) : s.Balanced :=
  Machine.invariant (I := Balanced) step_balanced initial_balanced hr

end Queue

end Transition
