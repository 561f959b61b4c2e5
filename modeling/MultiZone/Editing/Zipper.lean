/-! A line of bounded length that is edited at a cursor: what is to the left of it,
nearest first, and what is to the right. -/
namespace Editing

universe u

structure Zipper (α : Type u) (n : Nat) where
  left : List α
  right : List α
  fits : left.length + right.length ≤ n

namespace Zipper

variable {α : Type u} {n : Nat}

def line (z : Zipper α n) : List α := z.left.reverse ++ z.right

def position (z : Zipper α n) : Nat := z.left.length

def empty : Zipper α n := ⟨[], [], Nat.zero_le n⟩

def atEnd (l : List α) (fits : l.length ≤ n) : Zipper α n :=
  ⟨l.reverse, [], by simpa using fits⟩

def atStart (l : List α) (fits : l.length ≤ n) : Zipper α n :=
  ⟨[], l, by simpa using fits⟩

/-- The element goes before the cursor. A full line loses its last element, and
nothing is inserted at its end. -/
def insert (c : α) (z : Zipper α n) : Zipper α n :=
  if room : z.left.length < n then
    ⟨c :: z.left, z.right.take (n - 1 - z.left.length), by
      simp only [List.length_cons, List.length_take]
      omega⟩
  else z

def backspace : Zipper α n → Zipper α n
  | ⟨_ :: left, right, fits⟩ => ⟨left, right, by simp only [List.length_cons] at fits; omega⟩
  | z => z

def delete : Zipper α n → Zipper α n
  | ⟨left, _ :: right, fits⟩ => ⟨left, right, by simp only [List.length_cons] at fits; omega⟩
  | z => z

def moveLeft : Zipper α n → Zipper α n
  | ⟨c :: left, right, fits⟩ => ⟨left, c :: right, by simp only [List.length_cons] at *; omega⟩
  | z => z

def moveRight : Zipper α n → Zipper α n
  | ⟨left, c :: right, fits⟩ => ⟨c :: left, right, by simp only [List.length_cons] at *; omega⟩
  | z => z

theorem line_length (z : Zipper α n) : z.line.length ≤ n := by
  rw [line, List.length_append, List.length_reverse]
  exact z.fits

theorem position_le (z : Zipper α n) : z.position ≤ z.line.length := by
  rw [line, List.length_append, List.length_reverse]
  exact Nat.le_add_right _ _

theorem line_atEnd (l : List α) (fits : l.length ≤ n) : (atEnd l fits).line = l := by
  rw [line, atEnd, List.reverse_reverse, List.append_nil]

theorem line_moveLeft (z : Zipper α n) : z.moveLeft.line = z.line := by
  obtain ⟨left, right, fits⟩ := z
  cases left with
  | nil => rfl
  | cons c left => simp [moveLeft, line]

theorem line_moveRight (z : Zipper α n) : z.moveRight.line = z.line := by
  obtain ⟨left, right, fits⟩ := z
  cases right with
  | nil => rfl
  | cons c right => simp [moveRight, line]

theorem position_moveLeft (z : Zipper α n) : z.moveLeft.position = z.position - 1 := by
  obtain ⟨left, right, fits⟩ := z
  cases left with
  | nil => rfl
  | cons c left => rfl

theorem position_moveRight {z : Zipper α n} (more : z.right ≠ []) :
    z.moveRight.position = z.position + 1 := by
  obtain ⟨left, right, fits⟩ := z
  cases right with
  | nil => contradiction
  | cons c right => rfl

theorem left_delete (z : Zipper α n) : z.delete.left = z.left := by
  obtain ⟨left, right, fits⟩ := z
  cases right with
  | nil => rfl
  | cons c right => rfl

theorem right_delete (z : Zipper α n) : z.delete.right = z.right.drop 1 := by
  obtain ⟨left, right, fits⟩ := z
  cases right with
  | nil => rfl
  | cons c right => rfl

theorem right_backspace (z : Zipper α n) : z.backspace.right = z.right := by
  obtain ⟨left, right, fits⟩ := z
  cases left with
  | nil => rfl
  | cons c left => rfl

/-- To delete what is before the cursor is to step back and delete what follows. -/
theorem backspace_eq {z : Zipper α n} (more : 0 < z.position) :
    z.backspace = z.moveLeft.delete := by
  obtain ⟨left, right, fits⟩ := z
  cases left with
  | nil => contradiction
  | cons c left => rfl

theorem backspace_start {z : Zipper α n} (start : z.position = 0) : z.backspace = z := by
  obtain ⟨left, right, fits⟩ := z
  cases left with
  | nil => rfl
  | cons c left => contradiction

theorem insert_full (c : α) {z : Zipper α n} (full : n ≤ z.position) : z.insert c = z := by
  have full : n ≤ z.left.length := full
  rw [insert, dif_neg (by omega)]

theorem left_moveLeft_insert (c : α) {z : Zipper α n} (room : z.position < n) :
    (z.insert c).moveLeft.left = z.left := by
  have room : z.left.length < n := room
  rw [insert, dif_pos room]
  rfl

theorem right_moveLeft_insert (c : α) {z : Zipper α n} (room : z.position < n) :
    (z.insert c).moveLeft.right = c :: z.right.take (n - 1 - z.position) := by
  have room : z.left.length < n := room
  rw [insert, dif_pos room]
  rfl

theorem position_insert (c : α) {z : Zipper α n} (room : z.position < n) :
    (z.insert c).position = z.position + 1 := by
  have room : z.left.length < n := room
  rw [insert, dif_pos room]
  rfl

theorem line_insert (c : α) {z : Zipper α n} (room : z.position < n) :
    (z.insert c).line = z.left.reverse ++ c :: z.right.take (n - 1 - z.position) := by
  have room : z.left.length < n := room
  rw [insert, dif_pos room]
  simp [line, position]

end Zipper

end Editing
