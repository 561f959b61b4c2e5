import MultiZone.Transition.Machine

/-! One thread of control whose statements are atomic and which interrupts may
preempt between any two of them. An interrupt handler runs to completion, so it
is a single step that changes the memory and leaves the program point alone. -/
namespace Transition

structure Point (P M : Type) where
  pc : P
  mem : M

inductive Turn (A I : Type) where
  | statement (input : A)
  | interrupt (input : I)

/-- A statement reads its inputs from its label, as an interrupt does. An
interrupt that is masked at a program point is not enabled there. -/
structure Program (P M A I : Type) where
  entry : P
  memory : M
  statement : A → P → M → Option (Point P M)
  interrupt : I → P → M → Option M

namespace Program

variable {P M A I : Type}

def machine (p : Program P M A I) : Machine (Point P M) (Turn A I) where
  initial := ⟨p.entry, p.memory⟩
  step s
    | .statement a => p.statement a s.pc s.mem
    | .interrupt i => (p.interrupt i s.pc s.mem).map fun mem => ⟨s.pc, mem⟩

/-- An assertion at every program point that the next statement carries over to
the point it leads to and that no interrupt disturbs. The condition restricts
the steps that are considered. -/
structure Outline (p : Program P M A I) (C : Point P M → Turn A I → Prop)
    (At : P → M → Prop) : Prop where
  enter : At p.entry p.memory
  advance : ∀ a pc mem next, At pc mem → C ⟨pc, mem⟩ (.statement a) →
    p.statement a pc mem = some next → At next.pc next.mem
  stable : ∀ i pc mem mem', At pc mem → C ⟨pc, mem⟩ (.interrupt i) →
    p.interrupt i pc mem = some mem' → At pc mem'

theorem Outline.keep {p : Program P M A I} {C : Point P M → Turn A I → Prop}
    {At : P → M → Prop} (o : Outline p C At) (s : Point P M) (a : Turn A I) (t : Point P M)
    (h : At s.pc s.mem) (hc : C s a) (hs : p.machine.step s a = some t) : At t.pc t.mem := by
  cases a with
  | statement a => exact o.advance a s.pc s.mem t h hc hs
  | interrupt i =>
    obtain ⟨mem, hm, rfl⟩ := Option.map_eq_some_iff.mp hs
    exact o.stable i s.pc s.mem mem h hc hm

theorem Outline.holds {p : Program P M A I} {C : Point P M → Turn A I → Prop}
    {At : P → M → Prop} (o : Outline p C At) {as : List (Turn A I)} {s : Point P M}
    (obeys : p.machine.Obeys C p.machine.initial as)
    (hr : p.machine.run p.machine.initial as = some s) : At s.pc s.mem :=
  Machine.invariant_of_obeys (I := fun s => At s.pc s.mem) o.keep o.enter obeys hr

theorem Outline.always {p : Program P M A I} {At : P → M → Prop}
    (o : Outline p (fun _ _ => True) At) {as : List (Turn A I)} {s : Point P M}
    (hr : p.machine.run p.machine.initial as = some s) : At s.pc s.mem :=
  o.holds (Machine.obeys_of_forall (fun _ _ => trivial) as _) hr

/-- A second outline may use the assertions of a first one. -/
theorem Outline.relative {p : Program P M A I} {C : Point P M → Turn A I → Prop}
    {At Bt : P → M → Prop} (o : Outline p C At)
    (q : Outline p (fun s a => C s a ∧ At s.pc s.mem) Bt) :
    Outline p C fun pc mem => At pc mem ∧ Bt pc mem where
  enter := ⟨o.enter, q.enter⟩
  advance a pc mem next h hc hs :=
    ⟨o.advance a pc mem next h.1 hc hs, q.advance a pc mem next h.2 ⟨hc, h.1⟩ hs⟩
  stable i pc mem mem' h hc hs :=
    ⟨o.stable i pc mem mem' h.1 hc hs, q.stable i pc mem mem' h.2 ⟨hc, h.1⟩ hs⟩

theorem Outline.strengthen {p : Program P M A I} {C D : Point P M → Turn A I → Prop}
    {At : P → M → Prop} (o : Outline p C At) (sub : ∀ s a, D s a → C s a) : Outline p D At where
  enter := o.enter
  advance a pc mem next h hd := o.advance a pc mem next h (sub _ _ hd)
  stable i pc mem mem' h hd := o.stable i pc mem mem' h (sub _ _ hd)

end Program

end Transition
