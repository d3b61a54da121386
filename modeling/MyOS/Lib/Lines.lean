import Mathlib.Logic.Function.Basic

/-! A text without end, written character by character in lines of a fixed width. -/

namespace MyOS

/-- What has been written so far, and where the next character goes. -/
structure Written (α : Type) where
  line : Nat → Nat → α
  row : Nat
  col : Nat

namespace Written

variable {α : Type}

/-- Nothing is written yet. -/
def empty (blank : α) : Written α := ⟨fun _ _ => blank, 0, 0⟩

/-- The text with one place of the last line replaced. -/
def place (text : Written α) (col : Nat) (a : α) : Written α :=
  { text with line := Function.update text.line text.row (Function.update (text.line text.row) col a) }

/-- What follows begins a new line. -/
def newline (text : Written α) : Written α := { text with row := text.row + 1, col := 0 }

/-- A character more, which begins a new line where it fills the last one. -/
def write (width : Nat) (text : Written α) (a : α) : Written α :=
  -- The place is filled first, and then looked at whether the line is full.
  let text := { text.place text.col a with col := text.col + 1 }
  if text.col < width then text else text.newline

/-- The last character of the last line is taken back, if there is one. -/
def erase (blank : α) (text : Written α) : Written α :=
  -- At the beginning of a line there is nothing to take back.
  if text.col = 0 then text
  else { text.place (text.col - 1) blank with col := text.col - 1 }

/-- The next character goes to a place of the last line, behind which every line is blank. -/
structure Fits (width : Nat) (blank : α) (text : Written α) : Prop where
  col : text.col < width
  beyond : ∀ {row}, text.row < row → ∀ col, text.line row col = blank

section Laws

variable {width : Nat} {blank a : α} {text : Written α}

/-- The text at a place, after one place of the last line was replaced. -/
theorem place_line (text : Written α) (col : Nat) (a : α) (row col' : Nat) :
    (text.place col a).line row col' =
      if row = text.row ∧ col' = col then a else text.line row col' := by
  -- The place is in the last line or in another one.
  simp only [place, Function.update_apply]
  by_cases here : row = text.row
  · simp [here, Function.update_apply]
  · simp [here]

/-- Only the last line changes where a place of it is replaced. -/
theorem place_above (text : Written α) (col : Nat) (a : α) {row : Nat} (other : row ≠ text.row) :
    (text.place col a).line row = text.line row :=
  Function.update_of_ne other _ _

/-- A character leads to no earlier line. -/
theorem row_le_write (width : Nat) (text : Written α) (a : α) : text.row ≤ (text.write width a).row := by
  -- The character stays in the line, or fills it.
  unfold write
  simp only
  split
  · exact Nat.le_refl _
  · exact Nat.le_succ _

/-- Taking a character back does not lead to another line. -/
@[simp] theorem erase_row (blank : α) (text : Written α) : (text.erase blank).row = text.row := by
  -- Taking back changes a place and the column.
  unfold erase
  split <;> rfl

/-- A text without characters fits. -/
theorem Fits.empty (positive : 0 < width) (blank : α) : (Written.empty blank).Fits width blank :=
  ⟨positive, fun _ _ => rfl⟩

/-- Writing goes on in lines of the same width. -/
theorem Fits.newline (fits : text.Fits width blank) : text.newline.Fits width blank :=
  ⟨Nat.lt_of_le_of_lt (Nat.zero_le _) fits.col, fun below => fits.beyond (Nat.lt_of_succ_lt below)⟩

/-- A character goes to the last line, or begins a new one. -/
theorem Fits.write (fits : text.Fits width blank) (a : α) : (text.write width a).Fits width blank := by
  -- Lines behind the last one are blank still.
  have beyond : ∀ {row}, text.row < row → ∀ col, (text.place text.col a).line row col = blank := by
    intro row below col
    rw [place_above text _ a (Nat.ne_of_gt below)]
    exact fits.beyond below col
  unfold Written.write
  simp only
  split
  · next inside => exact ⟨inside, beyond⟩
  · -- The line is full, so that the next one begins with nothing in it.
    have full : Fits width blank { text.place text.col a with col := 0 } :=
      ⟨Nat.lt_of_le_of_lt (Nat.zero_le _) fits.col, beyond⟩
    exact full.newline

/-- A character taken back leaves the lines behind the last one blank. -/
theorem Fits.erase (fits : text.Fits width blank) : (text.erase blank).Fits width blank := by
  unfold Written.erase
  split
  · exact fits
  · -- A blank goes to a place of the last line.
    refine ⟨Nat.lt_of_le_of_lt (Nat.sub_le _ _) fits.col, fun below col => ?_⟩
    change (text.place (text.col - 1) blank).line _ col = blank
    rw [place_above text _ blank (Nat.ne_of_gt below)]
    exact fits.beyond below col

end Laws

end Written

end MyOS
