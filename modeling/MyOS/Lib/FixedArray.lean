import Mathlib.Data.List.Basic

/-! Arrays of a fixed length, read and written at natural-number indices as C does. -/

namespace MyOS

/-- A C array of `n` elements. -/
structure FixedArray (n : Nat) (α : Type) where
  cell : Fin n → α

namespace FixedArray

variable {n : Nat} {α : Type}

/-- The array whose element at each index is given by a function. -/
def ofFn (f : Nat → α) : FixedArray n α := ⟨fun i => f i⟩

/-- Every element holds the same value. -/
def fill (value : α) : FixedArray n α := ofFn fun _ => value

/-- The element at an index, or the default value outside the array. -/
def get [Inhabited α] (a : FixedArray n α) (i : Nat) : α :=
  if h : i < n then a.cell ⟨i, h⟩ else default

/-- The array with one element replaced, unchanged when the index is outside it. -/
def set (a : FixedArray n α) (i : Nat) (value : α) : FixedArray n α :=
  ⟨fun j => if j.val = i then value else a.cell j⟩

/-- The array with the elements from an index on replaced by those of a list. -/
def blit [Inhabited α] (a : FixedArray n α) (start : Nat) (values : List α) : FixedArray n α :=
  ofFn fun j => if start ≤ j ∧ j < start + values.length
    then values.getD (j - start) default else a.get j

/-- All elements in index order. -/
def toList (a : FixedArray n α) : List α := List.ofFn a.cell

/-- An array of default values. -/
instance [Inhabited α] : Inhabited (FixedArray n α) := ⟨fill default⟩

/-- A second replacement at the same index hides the first. -/
@[simp] theorem set_set (a : FixedArray n α) (i : Nat) (first second : α) :
    (a.set i first).set i second = a.set i second := by
  -- Both replacements are of the same element.
  simp only [set, FixedArray.mk.injEq]
  funext j
  split <;> rfl

variable [Inhabited α]

/-- Arrays are equal when they agree at every index inside them. -/
theorem ext_get {a b : FixedArray n α} (same : ∀ i, i < n → a.get i = b.get i) : a = b := by
  -- Inside the array reading an index is reading its element.
  cases a with
  | mk f =>
    cases b with
    | mk g =>
      congr
      funext i
      simpa [get, i.isLt] using same i i.isLt

/-- Inside the array, a built element is the value of the function. -/
theorem get_ofFn (f : Nat → α) {i : Nat} (inside : i < n) :
    (ofFn f : FixedArray n α).get i = f i := by
  simp [get, ofFn, inside]

/-- A filled array reads the same value everywhere inside it. -/
theorem get_fill (value : α) {i : Nat} (inside : i < n) :
    (fill value : FixedArray n α).get i = value :=
  get_ofFn _ inside

/-- Reading the replaced index gives the new value. -/
theorem get_set_same (a : FixedArray n α) {i : Nat} (value : α) (inside : i < n) :
    (a.set i value).get i = value := by
  simp [get, set, inside]

/-- Reading any other index gives the old value. -/
@[simp] theorem get_set_ne (a : FixedArray n α) {i j : Nat} (value : α) (apart : j ≠ i) :
    (a.set i value).get j = a.get j := by
  -- An index outside reads the default value before and after.
  by_cases inside : j < n <;> simp [get, set, inside, apart]

/-- Reading after a replacement, for an index inside the array. -/
theorem get_set (a : FixedArray n α) {i j : Nat} (value : α) (inside : j < n) :
    (a.set i value).get j = if j = i then value else a.get j := by
  -- The index is the replaced one or another.
  by_cases same : j = i
  · subst same; simp [get_set_same a value inside]
  · simp [same]

/-- Replacing an element by itself changes nothing. -/
@[simp] theorem set_get (a : FixedArray n α) (i : Nat) : a.set i (a.get i) = a := by
  -- Every index reads what it read before.
  apply ext_get
  intro j inside
  by_cases same : j = i
  · subst same; simp [get_set_same _ _ inside]
  · simp [same]

/-- Reading after a block copy, for an index inside the array. -/
theorem get_blit (a : FixedArray n α) (start : Nat) (values : List α) {j : Nat} (inside : j < n) :
    (a.blit start values).get j = if start ≤ j ∧ j < start + values.length
      then values.getD (j - start) default else a.get j :=
  -- The copy is built place by place.
  get_ofFn _ inside

/-- The elements of an array are those it holds at its indices. -/
theorem mem_toList {a : FixedArray n α} {value : α} :
    value ∈ a.toList ↔ ∃ i, i < n ∧ a.get i = value := by
  -- An element in the list has an index, and the other way around.
  simp only [toList, List.mem_ofFn]
  constructor
  · rintro ⟨i, rfl⟩
    exact ⟨i, i.isLt, by simp [get]⟩
  · rintro ⟨i, inside, rfl⟩
    exact ⟨⟨i, inside⟩, by simp [get, inside]⟩

end FixedArray

end MyOS
