import MultiZone.Memory.Region

/-! Structures in memory, whose fields are aligned, and on a wire, where one follows the
other. A number lies with its lowest byte first. -/
namespace Memory

structure Field where
  size : Nat
  align : Nat

def roundUp (n a : Nat) : Nat := (n + a - 1) / a * a

/-- Where the fields begin, each at the next multiple of its alignment. -/
def offsets : Nat → List Field → List Nat
  | _, [] => []
  | n, f :: fields => roundUp n f.align :: offsets (roundUp n f.align + f.size) fields

def packed : Nat → List Field → List Nat
  | _, [] => []
  | n, f :: fields => n :: packed (n + f.size) fields

/-- The size of the structure, with the padding behind the last field. -/
def structSize (fields : List Field) : Nat :=
  let last := ((offsets 0 fields).zip fields).foldl (fun _ f => f.1 + f.2.size) 0
  roundUp last ((fields.map Field.align).foldl max 1)

/-- No field of the packed structure lies across its alignment. -/
def Aligned (n : Nat) (fields : List Field) : Prop :=
  ∀ p ∈ (packed n fields).zip fields, p.2.align ∣ p.1

instance (n : Nat) (fields : List Field) : Decidable (Aligned n fields) :=
  inferInstanceAs (Decidable (∀ p ∈ _, _))

theorem le_roundUp (n : Nat) {a : Nat} (positive : 0 < a) : n ≤ roundUp n a := by
  have split := Nat.div_add_mod (n + a - 1) a
  have rest := Nat.mod_lt (n + a - 1) positive
  rw [roundUp, Nat.mul_comm]
  omega

theorem roundUp_of_dvd {n a : Nat} (dvd : a ∣ n) : roundUp n a = n := by
  obtain ⟨k, rfl⟩ := dvd
  unfold roundUp
  rcases Nat.eq_zero_or_pos a with rfl | positive
  · rw [Nat.zero_mul, Nat.mul_zero]
  · rw [Nat.add_sub_assoc positive, Nat.mul_add_div positive,
      Nat.div_eq_of_lt (Nat.sub_lt positive Nat.one_pos), Nat.add_zero, Nat.mul_comm]

/-- As long as the fields are aligned as they follow each other they lie in memory as
they do on the wire, whatever comes behind. -/
theorem leading_fields {n i : Nat} {fields more : List Field} (aligned : Aligned n fields)
    (inside : i < fields.length) :
    (offsets n (fields ++ more))[i]? = (packed n (fields ++ more))[i]? := by
  induction fields generalizing n i with
  | nil => cases inside
  | cons f fields ih =>
    have first : roundUp n f.align = n := roundUp_of_dvd (aligned (n, f) List.mem_cons_self)
    rw [List.cons_append, offsets, packed, first]
    cases i with
    | zero => rfl
    | succ i =>
      rw [List.getElem?_cons_succ, List.getElem?_cons_succ]
      exact ih (fun p later => aligned p (List.mem_cons_of_mem _ later))
        (Nat.lt_of_succ_lt_succ inside)

def number : List UInt8 → Nat
  | [] => 0
  | b :: bytes => b.toNat + 256 * number bytes

end Memory
