import MyOS.Console.Console
import MyOS.Lib.Lines
import MyOS.Lib.Ring
import Mathlib.Data.List.Infix

/-! The console shows a window of what was written to it. -/

namespace MyOS.Console

/-- What is done with the console. -/
inductive ConsoleCall where
  | putChar (c : UInt8)
  | scrollUp
  | scrollDown
  | scrollToBottom
  | clear

/-- One call of the console. -/
def consoleStep (s : ConsoleState) : ConsoleCall → ConsoleState
  | .putChar c => consolePutChar s c
  | .scrollUp => consoleScrollUp s 1
  | .scrollDown => consoleScrollDown s 1
  | .scrollToBottom => consoleScrollToBottom s
  | .clear => consoleClear s

/-- What a call adds to the text, in which every character has the same colour. -/
def writtenStep (color : UInt8) (text : Written UInt16) : ConsoleCall → Written UInt16
  | .putChar c =>
    if c == 10 then text.newline
    else if c == 8 then text.erase (vgaEntry 32 color)
    else text.write 80 (vgaEntry c color)
  | .clear => .empty (vgaEntry 32 color)
  | _ => text

/-- The console after a number of calls. -/
def consoleRun (s : ConsoleState) (calls : List ConsoleCall) : ConsoleState := calls.foldl consoleStep s

/-- The text after a number of calls, from an empty console on. -/
def writtenBy (color : UInt8) (calls : List ConsoleCall) : Written UInt16 :=
  calls.foldl (writtenStep color) (.empty (vgaEntry 32 color))

/-- The screen shows a part of the last lines of a text. -/
structure Window (s : ConsoleState) (text : Written UInt16) : Prop where
  row : s.cursorRow.toNat = text.row
  col : s.cursorCol.toNat = text.col
  inLine : s.cursorCol.toNat < 80
  /-- The ring ends with the line of the cursor. -/
  counted : s.historyFirstRow.toNat + s.historyRowCount.toNat = s.cursorRow.toNat + 1
  rows : 1 ≤ s.historyRowCount.toNat ∧ s.historyRowCount.toNat ≤ 512
  top : s.historyFirstRow.toNat ≤ s.viewportTop.toNat
  bottom : s.viewportTop.toNat ≤ (bottomViewportTop s).toNat
  /-- A line that is one of the last 512 stands in its row of the screen. -/
  shown : ∀ {r col}, r < 25 → col < 80 → s.viewportTop.toNat + r ≤ text.row →
    text.row < s.viewportTop.toNat + r + 512 →
    s.vgaMemory.get (r * 80 + col) = text.line (s.viewportTop.toNat + r) col
  /-- Behind the line of the cursor the screen is blank. -/
  blank : ∀ {r col}, r < 25 → col < 80 → text.row < s.viewportTop.toNat + r →
    s.vgaMemory.get (r * 80 + col) = vgaEntry 32 s.currentColor

section Laws

variable {s : ConsoleState} {text : Written UInt16}

/-- The ring holds the last lines of a text. -/
structure Holds (s : ConsoleState) (text : Written UInt16) : Prop where
  row : s.cursorRow.toNat = text.row
  /-- There are fewer lines than a word can count. -/
  few : s.cursorRow.toNat + 1 < 2 ^ 32
  counted : s.historyFirstRow.toNat + s.historyRowCount.toNat = s.cursorRow.toNat + 1
  rows : 1 ≤ s.historyRowCount.toNat ∧ s.historyRowCount.toNat ≤ 512
  /-- Lines are dropped from a full ring only. -/
  full : s.historyFirstRow.toNat = 0 ∨ s.historyRowCount.toNat = 512
  lines : ∀ {row col}, s.historyFirstRow.toNat ≤ row → row ≤ s.cursorRow.toNat → col < 80 →
    (s.history.get (row % 512)).get col = text.line row col

/-- The view begins in the ring, and does not end behind the line of the cursor. -/
structure InView (s : ConsoleState) : Prop where
  top : s.historyFirstRow.toNat ≤ s.viewportTop.toNat
  bottom : s.viewportTop.toNat ≤ (bottomViewportTop s).toNat

/-- A row of the ring is where its number says. -/
theorem historySlot_eq (row : UInt32) : historySlot row = row.toNat % 512 := by
  -- There are 512 rows.
  unfold historySlot consoleHistoryLines
  rw [UInt32.toNat_mod]
  rfl

/-- A number that is not the last one of a word has a successor. -/
theorem toNat_succ {n : UInt32} (few : n.toNat + 1 < 2 ^ 32) : (n + 1).toNat = n.toNat + 1 := by
  rw [UInt32.toNat_add]
  exact Nat.mod_eq_of_lt few

/-- Where the view begins that ends with the line of the cursor. -/
theorem toNat_bottomViewportTop (few : s.cursorRow.toNat + 1 < 2 ^ 32) :
    (bottomViewportTop s).toNat = s.cursorRow.toNat - 24 := by
  unfold bottomViewportTop vgaHeight
  -- A text of at most twenty-five lines is in view from its first line on.
  split
  · next short =>
    rw [UInt32.le_iff_toNat_le, toNat_succ few] at short
    change s.cursorRow.toNat + 1 ≤ 25 at short
    change 0 = _
    omega
  · -- A longer one has its last twenty-five lines in view.
    next long =>
    rw [UInt32.le_iff_toNat_le, toNat_succ few] at long
    change ¬ s.cursorRow.toNat + 1 ≤ 25 at long
    rw [UInt32.toNat_sub_of_le _ _ (UInt32.le_iff_toNat_le.mpr (by change 24 ≤ _; omega))]
    rfl

/-- A view is moved no further than to the first row of the ring, and up to the last one. -/
theorem toNat_clampViewport (s : ConsoleState) :
    (clampViewport s).viewportTop.toNat =
      min (bottomViewportTop s).toNat (max s.historyFirstRow.toNat s.viewportTop.toNat) := by
  -- The two tests one after the other are a maximum and a minimum.
  unfold clampViewport
  simp only [GT.gt, UInt32.lt_iff_toNat_lt]
  split <;> split <;> simp only [bottomViewportTop] at * <;> omega

/-- Moving the view changes nothing else. -/
theorem clampViewport_eq (s : ConsoleState) :
    clampViewport s = { s with viewportTop := (clampViewport s).viewportTop } := by
  -- In each case only the view is set.
  unfold clampViewport
  simp only
  split <;> split <;> rfl

namespace Holds

/-- Two rows of the ring are at different places. -/
theorem apart (holds : Holds s text) {row row' : Nat} (first : s.historyFirstRow.toNat ≤ row)
    (first' : s.historyFirstRow.toNat ≤ row') (last : row ≤ s.cursorRow.toNat)
    (last' : row' ≤ s.cursorRow.toNat) (same : row % 512 = row' % 512) : row = row' := by
  -- Both rows are among the last 512, and such rows are at different places of the ring.
  have counted := holds.counted
  have rows := holds.rows
  -- Counted from the first row, both are less than 512 rows away.
  have distance : row - s.historyFirstRow.toNat = row' - s.historyFirstRow.toNat := by
    refine @InRing.place_inj 512 s.historyFirstRow.toNat _ _ (by omega) (by omega) ?_
    rwa [Nat.add_sub_cancel' first, Nat.add_sub_cancel' first']
  omega

/-- The view of the last lines begins in the ring. -/
theorem first_le (holds : Holds s text) : s.historyFirstRow.toNat ≤ (bottomViewportTop s).toNat := by
  -- Either no line was dropped, or the ring is longer than the view.
  have counted := holds.counted
  rw [toNat_bottomViewportTop holds.few]
  rcases holds.full with all | full <;> omega

/-- The cursor may stand anywhere in its line, the view begin anywhere, and the screen show anything. -/
theorem moved (holds : Holds s text) (col : Nat) (cursorCol viewportTop : UInt32)
    (vgaMemory : FixedArray 2000 UInt16) :
    Holds { s with cursorCol, viewportTop, vgaMemory } { text with col } :=
  -- What the ring holds has no part in either.
  ⟨holds.row, holds.few, holds.counted, holds.rows, holds.full, holds.lines⟩

/-- A view that is moved into the ring is there. -/
theorem clampViewport (holds : Holds s text) :
    -- The clamped view lies between the first row and the last view, which are in this order.
    Holds (clampViewport s) text ∧ InView (Console.clampViewport s) := by
  have first := holds.first_le
  have top := toNat_clampViewport s
  rw [clampViewport_eq]
  refine ⟨holds.moved text.col s.cursorCol _ s.vgaMemory, ?_, ?_⟩
  · change s.historyFirstRow.toNat ≤ (Console.clampViewport s).viewportTop.toNat
    omega
  · change (Console.clampViewport s).viewportTop.toNat ≤ (bottomViewportTop s).toNat
    omega

/-- One place of the line of the cursor is written. -/
theorem setHistoryCell (holds : Holds s text) (col : UInt32) (entry : UInt16) :
    Holds (setHistoryCell s s.cursorRow col entry) (text.place col.toNat entry) := by
  -- Only the place of the cursor changes, and the text changes there in the same way.
  have row := holds.row
  have counted := holds.counted
  have rows := holds.rows
  refine ⟨row, holds.few, counted, rows, holds.full, fun {at_ col'} first last inside => ?_⟩
  change ((s.history.set (historySlot s.cursorRow) _).get (at_ % 512)).get col' = _
  rw [historySlot_eq, FixedArray.get_set _ _ (Nat.mod_lt _ (by decide)), Written.place_line, ← row]
  by_cases here : at_ = s.cursorRow.toNat
  · -- In the line of the cursor the place written has the new entry.
    subst here
    rw [if_pos rfl, FixedArray.get_set _ _ inside]
    simp only [true_and]
    split
    · rfl
    · exact holds.lines first last inside
  · -- Another row of the ring is at another place.
    have other : at_ % 512 ≠ s.cursorRow.toNat % 512 := fun same =>
      here (holds.apart first (by omega) last (Nat.le_refl _) same)
    rw [if_neg other, if_neg fun both => here both.1]
    exact holds.lines first last inside

/-- A new line begins, in the place of the oldest one where the ring is full. -/
theorem advanceToNextLine (holds : Holds s text) (few : s.cursorRow.toNat + 2 < 2 ^ 32)
    (blank : ∀ col, text.line (text.row + 1) col = vgaEntry 32 s.currentColor) :
    Holds (advanceToNextLine s) text.newline := by
  have counted := holds.counted
  have rows := holds.rows
  have row := holds.row
  have next : (s.cursorRow + 1).toNat = s.cursorRow.toNat + 1 := toNat_succ holds.few
  -- What the ring holds once the row of the new line is cleared.
  have lines : ∀ {at_ col}, s.cursorRow.toNat + 1 < at_ + 512 → s.historyFirstRow.toNat ≤ at_ →
      at_ ≤ s.cursorRow.toNat + 1 → col < 80 →
      ((s.history.set (historySlot (s.cursorRow + 1)) (FixedArray.fill (vgaEntry 32 s.currentColor))).get
        (at_ % 512)).get col = text.line at_ col := by
    intro at_ col near first last inside
    rw [historySlot_eq, next, FixedArray.get_set _ _ (Nat.mod_lt _ (by decide))]
    -- The row of the new line is blank, and the others are those of before.
    by_cases new : at_ = s.cursorRow.toNat + 1
    · rw [if_pos (by rw [new]), FixedArray.get_fill _ inside, new, row]
      exact (blank col).symm
    · rw [if_neg (by omega)]
      exact holds.lines first (by omega) inside
  unfold Console.advanceToNextLine
  simp only
  refine (clampViewport ?_).1
  -- A ring that is not full counts one row more, and drops none.
  by_cases room : s.historyRowCount < consoleHistoryLines
  · rw [if_pos room]
    have room : s.historyRowCount.toNat < 512 := UInt32.lt_iff_toNat_lt.mp room
    have more : (s.historyRowCount + 1).toNat = s.historyRowCount.toNat + 1 :=
      toNat_succ (by omega)
    have all : s.historyFirstRow.toNat = 0 := holds.full.resolve_right (by omega)
    refine ⟨?_, ?_, ?_, ?_, Or.inl all, fun {at_ col} first last inside => ?_⟩
    · exact next.trans (congrArg (· + 1) row)
    · change (s.cursorRow + 1).toNat + 1 < 2 ^ 32
      omega
    · change s.historyFirstRow.toNat + (s.historyRowCount + 1).toNat = (s.cursorRow + 1).toNat + 1
      omega
    · change 1 ≤ (s.historyRowCount + 1).toNat ∧ (s.historyRowCount + 1).toNat ≤ 512
      omega
    · change at_ ≤ (s.cursorRow + 1).toNat at last
      exact lines (by omega) first (by omega) inside
  · -- A full ring drops its first row, whose place the new one takes.
    rw [if_neg room]
    have full : s.historyRowCount.toNat = 512 := by
      have := UInt32.lt_iff_toNat_lt.not.mp room
      change ¬ s.historyRowCount.toNat < 512 at this
      omega
    have first_ : (s.historyFirstRow + 1).toNat = s.historyFirstRow.toNat + 1 := toNat_succ (by omega)
    refine ⟨?_, ?_, ?_, rows, Or.inr full, fun {at_ col} first last inside => ?_⟩
    · exact next.trans (congrArg (· + 1) row)
    · change (s.cursorRow + 1).toNat + 1 < 2 ^ 32
      omega
    · change (s.historyFirstRow + 1).toNat + s.historyRowCount.toNat = (s.cursorRow + 1).toNat + 1
      omega
    · change (s.historyFirstRow + 1).toNat ≤ at_ at first
      change at_ ≤ (s.cursorRow + 1).toNat at last
      exact lines (by omega) (by omega) (by omega) inside

end Holds

/-- The console holds a text, and the cursor stands where the text goes on. -/
structure Stores (s : ConsoleState) (text : Written UInt16) : Prop extends Holds s text where
  fits : text.Fits 80 (vgaEntry 32 s.currentColor)
  col : s.cursorCol.toNat = text.col

/-- The console holds a text, and shows a part of it. -/
structure Shows (s : ConsoleState) (text : Written UInt16) : Prop extends Stores s text, InView s where
  drawn : renderViewport s = s

/-- Beginning a new row leaves the colour and the place in the row alone. -/
theorem advanceToNextLine_others (s : ConsoleState) : (advanceToNextLine s).currentColor = s.currentColor ∧
    (advanceToNextLine s).cursorCol = s.cursorCol := by
  -- Clamping moves the view, and clearing fills a row of the ring.
  unfold advanceToNextLine
  rw [clampViewport_eq]
  simp only [clearHistoryRow]
  split <;> exact ⟨rfl, rfl⟩

namespace Stores

/-- The view may begin anywhere, and the screen show anything. -/
theorem unseen (stores : Stores s text) (viewportTop : UInt32) (vgaMemory : FixedArray 2000 UInt16) :
    Stores { s with viewportTop, vgaMemory } text :=
  ⟨stores.toHolds.moved text.col s.cursorCol viewportTop vgaMemory, stores.fits, stores.col⟩

/-- A new line begins, and the text goes on in it. -/
theorem nextLine (holds : Holds s text) (few : text.row + 2 < 2 ^ 32) (begins : s.cursorCol = 0)
    (fits : text.newline.Fits 80 (vgaEntry 32 s.currentColor))
    (blank : ∀ col, text.line (text.row + 1) col = vgaEntry 32 s.currentColor) :
    Stores (advanceToNextLine s) text.newline := by
  -- The ring gets a blank row, and the cursor moves to its beginning.
  have row := holds.row
  obtain ⟨color, col⟩ := advanceToNextLine_others s
  refine ⟨holds.advanceToNextLine (by omega) blank, ?_, ?_⟩
  · rw [color]
    exact fits
  · rw [col, begins]
    rfl

/-- The character before the cursor is taken back. -/
theorem erase (stores : Stores s text) (inside : text.col ≠ 0) :
    Stores (setHistoryCell { s with cursorCol := s.cursorCol - 1 } s.cursorRow (s.cursorCol - 1)
      (vgaEntry 32 s.currentColor)) (text.erase (vgaEntry 32 s.currentColor)) := by
  -- The cursor is not at the beginning of its line, so it goes back by one.
  have col := stores.col
  have width := stores.fits.col
  have back : (s.cursorCol - 1).toNat = text.col - 1 := by
    rw [← col]
    exact UInt32.toNat_sub_of_le _ _ (UInt32.le_iff_toNat_le.mpr (by change 1 ≤ _; omega))
  have stored := stores.toHolds.setHistoryCell (s.cursorCol - 1) (vgaEntry 32 s.currentColor)
  rw [back] at stored
  have erased : text.erase (vgaEntry 32 s.currentColor) =
      { text.place (text.col - 1) (vgaEntry 32 s.currentColor) with col := text.col - 1 } := if_neg inside
  -- A blank stands where the character was, and the cursor in front of it.
  refine ⟨?_, stores.fits.erase, ?_⟩
  · rw [erased]
    exact stored.moved (text.col - 1) (s.cursorCol - 1) s.viewportTop s.vgaMemory
  · rw [erased]
    exact back

/-- A character is written, which may fill the line. -/
theorem write (stores : Stores s text) (entry : UInt16)
    (few : (text.write 80 entry).row + 1 < 2 ^ 32) :
    Stores (if s.cursorCol + 1 ≥ vgaWidth then
        Console.advanceToNextLine { setHistoryCell s s.cursorRow s.cursorCol entry with cursorCol := 0 }
      else { setHistoryCell s s.cursorRow s.cursorCol entry with cursorCol := s.cursorCol + 1 })
      (text.write 80 entry) := by
  -- The character is stored in the ring first, and then the cursor moves.
  have col := stores.col
  have width := stores.fits.col
  have next : (s.cursorCol + 1).toNat = text.col + 1 := by
    rw [toNat_succ (by omega), col]
  have stored := stores.toHolds.setHistoryCell s.cursorCol entry
  rw [col] at stored
  have fits := stores.fits.write entry
  unfold Written.write at few fits ⊢
  simp only at few fits ⊢
  by_cases full : text.col + 1 < 80
  · -- There is room for more characters in the line.
    rw [if_pos full] at few fits ⊢
    rw [if_neg]
    · exact ⟨stored.moved (text.col + 1) (s.cursorCol + 1) s.viewportTop s.vgaMemory, fits, next⟩
    · rw [ge_iff_le, UInt32.le_iff_toNat_le, next]
      exact Nat.not_le.mpr full
  · -- The line is full, and the next one begins, in which nothing was written so far.
    rw [if_neg full] at few fits ⊢
    rw [if_pos]
    · have begun := stored.moved (text.col + 1) 0 s.viewportTop s.vgaMemory
      refine nextLine begun few rfl fits fun col' => ?_
      refine (congrFun (Written.place_above text text.col entry ?_) col').trans ?_
      · exact Nat.succ_ne_self _
      · exact stores.fits.beyond (Nat.lt_succ_self _) col'
    · rw [ge_iff_le, UInt32.le_iff_toNat_le, next]
      exact Nat.le_of_not_lt full

/-- A character is stored, and the text goes on behind it. -/
theorem storeChar (stores : Stores s text) (c : UInt8)
    (few : (writtenStep s.currentColor text (.putChar c)).row + 1 < 2 ^ 32) :
    Stores (storeChar s c) (writtenStep s.currentColor text (.putChar c)) := by
  -- The source looks for a line feed, then for a backspace, and takes the rest as characters.
  unfold Console.storeChar writtenStep at *
  simp only at few ⊢
  by_cases newline : (c == 10) = true
  · rw [if_pos newline] at few ⊢
    rw [if_pos newline]
    have begun := stores.toHolds.moved text.col 0 s.viewportTop s.vgaMemory
    exact nextLine begun few rfl stores.fits.newline (stores.fits.beyond (Nat.lt_succ_self _))
  rw [if_neg newline] at few ⊢
  rw [if_neg newline]
  by_cases backspace : (c == 8) = true
  · rw [if_pos backspace, if_pos backspace]
    -- The cursor goes back where it does not stand at the beginning of its line.
    have begins : s.cursorCol > 0 ↔ text.col ≠ 0 := by
      rw [gt_iff_lt, UInt32.lt_iff_toNat_lt, stores.col]
      exact Nat.pos_iff_ne_zero
    by_cases inside : text.col ≠ 0
    · rw [if_pos (begins.mpr inside)]
      exact stores.erase inside
    · rw [if_neg (begins.not.mpr inside), Written.erase, if_pos (not_not.mp inside)]
      exact stores
  · -- Any other character goes into the line.
    rw [if_neg backspace] at few ⊢
    rw [if_neg backspace]
    exact stores.write _ few

end Stores

/-- Storing a character leaves the colour alone. -/
theorem storeChar_color (s : ConsoleState) (c : UInt8) : (storeChar s c).currentColor = s.currentColor := by
  -- Only the cursor, the view and the rows change.
  have advanced : ∀ t : ConsoleState, (advanceToNextLine t).currentColor = t.currentColor :=
    fun t => (advanceToNextLine_others t).1
  unfold storeChar
  simp only
  split
  · exact advanced _
  split
  · split <;> rfl
  split
  · exact advanced _
  · rfl

/-- Storing a character moves the view as far as the ring makes it necessary, if at all. -/
theorem storeChar_viewport (s : ConsoleState) (c : UInt8) :
    (storeChar s c).viewportTop = s.viewportTop ∨
      (storeChar s c).viewportTop.toNat = min (bottomViewportTop (storeChar s c)).toNat
        (max (storeChar s c).historyFirstRow.toNat s.viewportTop.toNat) := by
  -- A new line clamps the view, which changes neither the ring nor the cursor.
  have advanced : ∀ t : ConsoleState, t.viewportTop = s.viewportTop →
      (advanceToNextLine t).viewportTop.toNat = min (bottomViewportTop (advanceToNextLine t)).toNat
        (max (advanceToNextLine t).historyFirstRow.toNat s.viewportTop.toNat) := by
    intro t same
    unfold advanceToNextLine
    simp only
    rw [toNat_clampViewport, clampViewport_eq, ← same]
    split <;> rfl
  unfold storeChar
  simp only
  -- A line feed.
  split
  · exact Or.inr (advanced _ rfl)
  -- A backspace.
  split
  · split <;> exact Or.inl rfl
  -- Any other character, which may fill its line.
  split
  · exact Or.inr (advanced _ rfl)
  · exact Or.inl rfl

namespace Shows

/-- A view that is in the ring and drawn shows what the ring holds. -/
theorem rendered (stores : Stores s text) (view : InView s) : Shows (renderViewport s) text where
  -- The screen is drawn from the ring and the view.
  toStores := stores.unseen s.viewportTop _
  toInView := ⟨view.top, view.bottom⟩
  drawn := rfl

/-- An empty text is shown after the console was cleared. -/
theorem clear (s : ConsoleState) : Shows (consoleClear s) (.empty (vgaEntry 32 s.currentColor)) := by
  -- The ring holds one row, which was cleared.
  refine rendered ⟨⟨rfl, (show 0 + 1 < 2 ^ 32 by decide), rfl, (show 1 ≤ 1 ∧ 1 ≤ 512 by decide), Or.inl rfl,
      fun {row col} first last inside => ?_⟩,
    Written.Fits.empty (by decide) _, rfl⟩ ⟨Nat.le_refl 0, Nat.le_refl 0⟩
  obtain rfl : row = 0 := Nat.le_zero.mp last
  change ((s.history.set 0 _).get 0).get col = _
  rw [FixedArray.get_set _ _ (by decide), if_pos rfl, FixedArray.get_fill _ inside]
  rfl

/-- The text grows by a character, and the view stays where it can. -/
theorem putChar (shows : Shows s text) (c : UInt8)
    (few : (writtenStep s.currentColor text (.putChar c)).row + 1 < 2 ^ 32) :
    Shows (consolePutChar s c) (writtenStep s.currentColor text (.putChar c)) := by
  -- The character is stored, and then the view follows the text or is clamped.
  have stored := shows.toStores.storeChar c few
  unfold consolePutChar
  simp only
  split
  · -- The view of the last lines begins in the ring.
    exact rendered (stored.unseen _ _) ⟨stored.first_le, Nat.le_refl _⟩
  · obtain ⟨-, view⟩ := stored.toHolds.clampViewport
    refine rendered ?_ view
    rw [clampViewport_eq]
    exact stored.unseen _ _

/-- The view moves to a row from which on the screen is filled. -/
theorem moveViewport (shows : Shows s text) {top : UInt32} (first : s.historyFirstRow.toNat ≤ top.toNat)
    (last : top.toNat ≤ (bottomViewportTop s).toNat) : Shows (moveViewport s top) text := by
  -- A view at the row it has is drawn already.
  unfold Console.moveViewport
  split
  · exact rendered (shows.toStores.unseen _ _) ⟨first, last⟩
  · exact shows

/-- One call shows the text it leads to. -/
theorem step (shows : Shows s text) (call : ConsoleCall)
    (few : (writtenStep s.currentColor text call).row + 1 < 2 ^ 32) :
    Shows (consoleStep s call) (writtenStep s.currentColor text call) := by
  have top := shows.top
  have bottom := shows.bottom
  -- Each call either writes to the text or moves the view within its bounds.
  cases call with
  | putChar c => exact shows.putChar c few
  | scrollUp =>
    have up : (s.viewportTop - s.historyFirstRow).toNat =
        s.viewportTop.toNat - s.historyFirstRow.toNat :=
      UInt32.toNat_sub_of_le _ _ (UInt32.le_iff_toNat_le.mpr top)
    unfold consoleStep consoleScrollUp
    simp only
    split
    · -- The oldest row is less than one row away.
      exact shows.moveViewport (Nat.le_refl _) (by omega)
    · next more =>
      rw [gt_iff_lt, UInt32.lt_iff_toNat_lt, up] at more
      change ¬ _ < 1 at more
      -- There is a row above the view.
      have less : (s.viewportTop - 1).toNat = s.viewportTop.toNat - 1 :=
        UInt32.toNat_sub_of_le _ _ (UInt32.le_iff_toNat_le.mpr (by change 1 ≤ _; omega))
      exact shows.moveViewport (by omega) (by omega)
  | scrollDown =>
    have few := shows.few
    have last := toNat_bottomViewportTop few
    have more : (s.viewportTop + 1).toNat = s.viewportTop.toNat + 1 := toNat_succ (by omega)
    unfold consoleStep consoleScrollDown
    simp only
    split
    · -- The view would go beyond the last row.
      exact shows.moveViewport shows.first_le (Nat.le_refl _)
    · next less =>
      rw [gt_iff_lt, UInt32.lt_iff_toNat_lt, more] at less
      exact shows.moveViewport (by omega) (by omega)
  | scrollToBottom => exact shows.moveViewport shows.first_le (Nat.le_refl _)
  | clear => exact clear s

/-- What is on the screen, in terms of the text. -/
theorem window (shows : Shows s text) : Window s text := by
  have top := shows.top
  have bottom := shows.bottom
  have few := shows.few
  have last := toNat_bottomViewportTop few
  have counted := shows.counted
  have rows := shows.rows
  have row := shows.row
  -- The row behind the last one is the one the source compares with.
  have behind : (s.historyFirstRow + s.historyRowCount).toNat = s.cursorRow.toNat + 1 := by
    rw [UInt32.toNat_add, Nat.mod_eq_of_lt (by omega), counted]
  -- Every place of the screen was drawn from the ring, or is blank.
  have place : ∀ {r col}, r < 25 → col < 80 → s.vgaMemory.get (r * 80 + col) =
      if s.viewportTop.toNat + r ≤ s.cursorRow.toNat then text.line (s.viewportTop.toNat + r) col
      else vgaEntry 32 s.currentColor := by
    intro r col inside inside'
    have at_ : (s.viewportTop + UInt32.ofNat r).toNat = s.viewportTop.toNat + r := by
      rw [UInt32.toNat_add, UInt32.toNat_ofNat_of_lt' (show r < 2 ^ 32 by omega),
        Nat.mod_eq_of_lt (by omega)]
    rw [← shows.drawn, renderViewport, FixedArray.get_ofFn _ (by omega)]
    simp only [show (r * 80 + col) / 80 = r by omega, show (r * 80 + col) % 80 = col by omega,
      ge_iff_le, UInt32.le_iff_toNat_le, UInt32.lt_iff_toNat_lt, at_, behind, historySlot_eq]
    -- Rows up to the one of the cursor are in the ring, and the others are drawn blank.
    by_cases held : s.viewportTop.toNat + r ≤ s.cursorRow.toNat
    · rw [if_pos ⟨by omega, by omega⟩, if_pos held]
      exact shows.lines (by omega) held inside'
    · rw [if_neg (by omega), if_neg held]
  refine ⟨row, shows.col, ?_, counted, rows, top, bottom, fun inside inside' here _ => ?_,
    fun inside inside' beyond => ?_⟩
  · rw [shows.col]
    exact shows.fits.col
  · rw [place inside inside', if_pos (by omega)]
  · rw [place inside inside', if_neg (by omega)]

end Shows

/-- Every call leaves the colour alone. -/
theorem consoleStep_color (s : ConsoleState) (call : ConsoleCall) :
    (consoleStep s call).currentColor = s.currentColor := by
  -- Moving the view only draws again.
  have moved : ∀ top, (moveViewport s top).currentColor = s.currentColor := by
    intro top
    unfold moveViewport
    split <;> rfl
  cases call with
  | putChar c =>
    unfold consoleStep consolePutChar
    simp only [renderViewport]
    split
    · exact storeChar_color s c
    · rw [clampViewport_eq]
      exact storeChar_color s c
  | scrollUp => exact moved _
  | scrollDown => exact moved _
  | scrollToBottom => exact moved _
  | clear => rfl

/-- From a cleared console on, every run shows the text it leads to. -/
theorem consoleRun_shows (s : ConsoleState) {calls : List ConsoleCall}
    (few : ∀ before, before <+: calls → (writtenBy s.currentColor before).row + 1 < 2 ^ 32) :
    Shows (consoleRun (consoleClear s) calls) (writtenBy s.currentColor calls) ∧
      (consoleRun (consoleClear s) calls).currentColor = s.currentColor := by
  -- By induction on the calls, from the last one back.
  induction calls using List.reverseRecOn with
  | nil => exact ⟨.clear s, rfl⟩
  | append_singleton calls call ih =>
    obtain ⟨shows, color⟩ := ih fun before start => few before (start.trans (List.prefix_append _ _))
    have next := few _ (List.prefix_refl _)
    unfold consoleRun writtenBy at *
    rw [List.foldl_append, List.foldl_cons, List.foldl_nil] at next ⊢
    rw [← color] at shows next
    rw [List.foldl_append, List.foldl_cons, List.foldl_nil]
    refine ⟨?_, (consoleStep_color _ _).trans color⟩
    rw [← color]
    exact shows.step call next

/-- A character leads to no earlier line. -/
theorem row_le_writtenStep (color : UInt8) (text : Written UInt16) (c : UInt8) :
    text.row ≤ (writtenStep color text (.putChar c)).row := by
  unfold writtenStep
  -- A line feed leads to the next line, a backspace to none, and any other character to no earlier one.
  simp only
  split
  · exact Nat.le_succ _
  split
  · rw [Written.erase_row]
  · exact Written.row_le_write 80 text _

/-- A view of other lines than the last ones moves only where its first line is no longer in the ring. -/
theorem Shows.putChar_viewport (shows : Shows s text) (c : UInt8)
    (few : (writtenStep s.currentColor text (.putChar c)).row + 1 < 2 ^ 32)
    (scrolled : consoleIsScrolled s = true)
    (moves : (consolePutChar s c).viewportTop ≠ s.viewportTop) :
    s.viewportTop.toNat < (consolePutChar s c).historyFirstRow.toNat := by
  -- After the character the view is clamped to rows that are still in the ring.
  have stored := shows.toStores.storeChar c few
  have first := stored.first_le
  have bottom := shows.bottom
  -- The last lines are no earlier ones than before.
  have later : (bottomViewportTop s).toNat ≤ (bottomViewportTop (storeChar s c)).toNat := by
    rw [toNat_bottomViewportTop shows.few, toNat_bottomViewportTop stored.few, shows.row, stored.row]
    exact Nat.sub_le_sub_right (row_le_writtenStep s.currentColor text c) 24
  unfold consolePutChar at moves ⊢
  simp only [renderViewport] at moves ⊢
  rw [scrolled, if_neg (by decide)] at moves ⊢
  rw [clampViewport_eq]
  change s.viewportTop.toNat < (storeChar s c).historyFirstRow.toNat
  have clamped := toNat_clampViewport (storeChar s c)
  have other : (clampViewport (storeChar s c)).viewportTop.toNat ≠ s.viewportTop.toNat :=
    fun same => moves (UInt32.toNat_inj.mp same)
  -- The clamped view is another one only if the first row passed it.
  rcases storeChar_viewport s c with same | moved
  · rw [same] at clamped
    omega
  · omega

/--
The screen shows a window of what was written, and the ring of lines is in order.

A window of other lines than the last ones stays where it is until its first line is dropped.
-/
theorem consoleRun_window (s : ConsoleState) (calls : List ConsoleCall)
    (few : ∀ before, before <+: calls → (writtenBy s.currentColor before).row + 1 < 2 ^ 32) :
    Window (consoleRun (consoleClear s) calls) (writtenBy s.currentColor calls) ∧
      ∀ before c, before ++ [.putChar c] <+: calls →
        consoleIsScrolled (consoleRun (consoleClear s) before) = true →
        (consoleRun (consoleClear s) (before ++ [.putChar c])).viewportTop ≠
          (consoleRun (consoleClear s) before).viewportTop →
        (consoleRun (consoleClear s) before).viewportTop <
          (consoleRun (consoleClear s) (before ++ [.putChar c])).historyFirstRow := by
  -- The window follows from the run, and the last part from the call behind `before`.
  refine ⟨(consoleRun_shows s few).1.window, fun before c start scrolled moves => ?_⟩
  obtain ⟨shows, color⟩ := consoleRun_shows s fun earlier earlierStart =>
    few earlier (earlierStart.trans ((List.prefix_append _ _).trans start))
  have next := few _ start
  unfold consoleRun writtenBy at *
  rw [List.foldl_append, List.foldl_cons, List.foldl_nil] at moves next ⊢
  rw [← color] at shows next
  exact UInt32.lt_iff_toNat_lt.mpr (shows.putChar_viewport c next scrolled moves)

end Laws

section Example

/-- The console as it is when the machine starts. -/
def bootConsole : ConsoleState where
  cursorRow := 0
  cursorCol := 0
  viewportTop := 0
  historyFirstRow := 0
  historyRowCount := 1
  currentColor := 0x07
  history := .fill (.fill 0)
  vgaMemory := .fill 0

variable {s : ConsoleState} {text : Written UInt16}

/-- Line feeds begin lines without text. -/
theorem written_lineFeeds (color : UInt8) (text : Written UInt16) (n : Nat) :
    ((List.replicate (n + 1) 10).map .putChar).foldl (writtenStep color) text =
      ⟨text.line, text.row + (n + 1), 0⟩ := by
  -- By induction on the lines.
  induction n generalizing text with
  | zero => rfl
  | succ n ih =>
    rw [List.replicate_succ, List.map_cons, List.foldl_cons]
    refine (ih _).trans ?_
    change (⟨text.line, text.row + 1 + (n + 1), 0⟩ : Written UInt16) = _
    rw [Nat.add_right_comm, Nat.add_assoc]

/-- Moving the view writes nothing. -/
theorem written_scrollUps (color : UInt8) (text : Written UInt16) (n : Nat) :
    (List.replicate n ConsoleCall.scrollUp).foldl (writtenStep color) text = text := by
  -- By induction on the calls, none of which adds to the text.
  induction n with
  | zero => rfl
  | succ n ih =>
    rw [List.replicate_succ, List.foldl_cons]
    exact ih

/-- A view of the end of the text follows it. -/
theorem putChar_follows (follows : consoleIsScrolled s = false) (c : UInt8) :
    consoleIsScrolled (consolePutChar s c) = false := by
  unfold consolePutChar
  -- The view is set to the end, and drawn.
  rw [follows]
  exact bne_self_eq_false _

/-- It does so along a run that only writes. -/
theorem consoleRun_follows (follows : consoleIsScrolled s = false) (cs : List UInt8) :
    consoleIsScrolled (consoleRun s (cs.map .putChar)) = false := by
  -- By induction on the characters.
  induction cs generalizing s with
  | nil => exact follows
  | cons c cs ih => exact ih (putChar_follows follows c)

/-- Moving the view changes nothing but the view. -/
theorem moveViewport_fields (s : ConsoleState) (top : UInt32) :
    (moveViewport s top).viewportTop = top ∧
      (moveViewport s top).historyFirstRow = s.historyFirstRow ∧
      (moveViewport s top).historyRowCount = s.historyRowCount ∧
      (moveViewport s top).cursorRow = s.cursorRow := by
  unfold moveViewport
  split
  · exact ⟨rfl, rfl, rfl, rfl⟩
  · -- The view was there already.
    next same =>
    rw [bne_iff_ne, not_not] at same
    exact ⟨same.symm, rfl, rfl, rfl⟩

/-- The view goes up by one line, or stays at the oldest one. -/
theorem toNat_scrollUp (first : s.historyFirstRow.toNat ≤ s.viewportTop.toNat) :
    (consoleScrollUp s 1).viewportTop.toNat = max s.historyFirstRow.toNat (s.viewportTop.toNat - 1) := by
  have apart : (s.viewportTop - s.historyFirstRow).toNat =
      s.viewportTop.toNat - s.historyFirstRow.toNat :=
    UInt32.toNat_sub_of_le _ _ (UInt32.le_iff_toNat_le.mpr first)
  have one : (1 : UInt32).toNat = 1 := rfl
  unfold consoleScrollUp
  rw [(moveViewport_fields s _).1]
  -- There is a line above the view, or there is none.
  split
  · next oldest =>
    rw [gt_iff_lt, UInt32.lt_iff_toNat_lt, apart, one] at oldest
    omega
  · next above =>
    rw [gt_iff_lt, UInt32.lt_iff_toNat_lt, apart, one] at above
    rw [UInt32.toNat_sub_of_le _ _ (UInt32.le_iff_toNat_le.mpr (by rw [one]; omega)), one]
    omega

/-- Moving the view up often enough leads to the oldest line in the ring. -/
theorem scrollUps_top {n : Nat} (first : s.historyFirstRow.toNat ≤ s.viewportTop.toNat)
    (enough : s.viewportTop.toNat ≤ s.historyFirstRow.toNat + n) :
    let t := consoleRun s (List.replicate n .scrollUp)
    t.viewportTop = s.historyFirstRow ∧ t.historyFirstRow = s.historyFirstRow ∧
      t.historyRowCount = s.historyRowCount ∧ t.cursorRow = s.cursorRow := by
  -- By induction on the calls, each of which moves the view up by one line at most.
  induction n generalizing s with
  | zero =>
    refine ⟨UInt32.toNat_inj.mp ?_, rfl, rfl, rfl⟩
    change s.viewportTop.toNat = _
    omega
  | succ n ih =>
    have top := toNat_scrollUp first
    obtain ⟨-, firstRow, rowCount, row⟩ := moveViewport_fields s
      (if 1 > s.viewportTop - s.historyFirstRow then s.historyFirstRow else s.viewportTop - 1)
    change (consoleScrollUp s 1).historyFirstRow = _ at firstRow
    change (consoleScrollUp s 1).historyRowCount = _ at rowCount
    change (consoleScrollUp s 1).cursorRow = _ at row
    have later := @ih (consoleScrollUp s 1) (by rw [firstRow, top]; omega) (by rw [firstRow, top]; omega)
    rw [firstRow, rowCount, row] at later
    exact later

/-- More lines than the ring holds, one of which has a character. -/
def manyCharacters : List UInt8 := List.replicate 20 10 ++ 33 :: List.replicate 500 10

/-- A view of the oldest of these lines that are still in the ring. -/
def manyLines : List ConsoleCall := manyCharacters.map .putChar ++ List.replicate 487 .scrollUp

/-- The text of these lines. -/
theorem written_manyLines (color : UInt8) :
    ∃ line, writtenBy color (manyCharacters.map .putChar) = ⟨line, 520, 0⟩ ∧
      writtenBy color manyLines = ⟨line, 520, 0⟩ ∧ line 20 0 = vgaEntry 33 color := by
  -- The character is written behind twenty line feeds.
  let front : Written UInt16 := ⟨fun _ _ => vgaEntry 32 color, 20, 0⟩
  have whole : writtenBy color (manyCharacters.map .putChar) =
      ⟨(front.write 80 (vgaEntry 33 color)).line, 520, 0⟩ := by
    unfold writtenBy manyCharacters
    rw [List.map_append, List.map_cons, List.foldl_append, List.foldl_cons, written_lineFeeds,
      written_lineFeeds]
    rfl
  refine ⟨_, whole, ?_, ?_⟩
  · rw [← whole]
    unfold writtenBy manyLines
    rw [List.foldl_append, written_scrollUps]
  · exact (Written.place_line front 0 (vgaEntry 33 color) 20 0).trans (if_pos ⟨rfl, rfl⟩)

/-- A call begins one line at most. -/
theorem row_writtenStep_le (color : UInt8) (text : Written UInt16) (call : ConsoleCall) :
    (writtenStep color text call).row ≤ text.row + 1 := by
  cases call with
  | putChar c =>
    unfold writtenStep
    simp only
    split
    · exact Nat.le_refl _
    split
    · rw [Written.erase_row]
      exact Nat.le_succ _
    · -- A character fills the line, or does not.
      unfold Written.write
      simp only
      split
      · exact Nat.le_succ _
      · exact Nat.le_refl _
  | clear => exact Nat.zero_le _
  | scrollUp | scrollDown | scrollToBottom => exact Nat.le_succ _

/-- There are no more lines than calls. -/
theorem row_writtenBy_le (color : UInt8) (calls : List ConsoleCall) :
    (writtenBy color calls).row ≤ calls.length := by
  -- By induction on the calls, from the last one back.
  induction calls using List.reverseRecOn with
  | nil => exact Nat.le_refl _
  | append_singleton calls call ih =>
    rw [writtenBy, List.foldl_append, List.length_append, List.foldl_cons, List.foldl_nil]
    exact (row_writtenStep_le color _ call).trans (Nat.succ_le_succ ih)

/-- No beginning of that run, nor of one with a line more, is near the bound on lines. -/
theorem manyLines_few (before : List ConsoleCall) (start : before <+: manyLines ++ [.putChar 10]) :
    (writtenBy bootConsole.currentColor before).row + 1 < 2 ^ 32 := by
  -- The run has about a thousand calls.
  have most := row_writtenBy_le bootConsole.currentColor before
  have length := start.length_le
  simp only [manyLines, manyCharacters, List.length_append, List.length_map, List.length_cons,
    List.length_replicate, List.length_nil] at length
  omega

/-- The view of the oldest lines begins with line 9, since the ring holds 512. -/
theorem manyLines_view :
    let s := consoleRun (consoleClear bootConsole) manyLines
    s.cursorRow = 520 ∧ s.historyFirstRow = 9 ∧ s.historyRowCount = 512 ∧ s.viewportTop = 9 := by
  intro t
  obtain ⟨line, written, -⟩ := written_manyLines bootConsole.currentColor
  have start : manyCharacters.map .putChar <+: manyLines ++ [.putChar 10] := by
    unfold manyLines
    exact (List.prefix_append _ _).trans (List.prefix_append _ _)
  obtain ⟨shows, -⟩ := consoleRun_shows bootConsole fun before earlier =>
    manyLines_few before (earlier.trans start)
  have follows := @consoleRun_follows (consoleClear bootConsole) (by decide +kernel) manyCharacters
  rw [written] at shows
  generalize run : consoleRun (consoleClear bootConsole) (manyCharacters.map .putChar) = s at shows follows
  -- What was written fills the ring, and the view is at its end.
  have row : s.cursorRow.toNat = 520 := shows.row
  have counted := shows.counted
  have rows := shows.rows
  have full := shows.full
  have bottom : s.viewportTop = bottomViewportTop s := by
    simpa [consoleIsScrolled] using follows
  have top : s.viewportTop.toNat = 496 := by
    rw [bottom, toNat_bottomViewportTop shows.few, row]
  have moved := @scrollUps_top s 487 (by omega) (by omega)
  have split : t = consoleRun s (List.replicate 487 .scrollUp) := by
    rw [← run]
    unfold t manyLines
    exact List.foldl_append
  rw [split]
  obtain ⟨topIs, firstIs, countIs, rowIs⟩ := moved
  rw [topIs, firstIs, countIs, rowIs]
  refine ⟨UInt32.toNat_inj.mp row, UInt32.toNat_inj.mp ?_, UInt32.toNat_inj.mp ?_,
    UInt32.toNat_inj.mp ?_⟩
  · change _ = 9
    omega
  · change _ = 512
    omega
  · change _ = 9
    omega

/-- One more line moves the view on, where it begins with the oldest line of a full ring. -/
theorem lineFeed_view (row : s.cursorRow = 520) (first : s.historyFirstRow = 9)
    (count : s.historyRowCount = 512) (top : s.viewportTop = 9) :
    consoleIsScrolled s = true ∧ (consolePutChar s 10).viewportTop = 10 := by
  have scrolled : consoleIsScrolled s = true := by
    unfold consoleIsScrolled bottomViewportTop
    rw [row, top]
    decide
  refine ⟨scrolled, ?_⟩
  -- The view began with the line that is dropped.
  unfold consolePutChar storeChar advanceToNextLine clampViewport
  have full : ¬ (512 : UInt32) < consoleHistoryLines := by decide
  have bottom : ∀ t : ConsoleState, t.cursorRow = 521 → bottomViewportTop t = 497 := by
    intro t row
    unfold bottomViewportTop
    rw [row]
    decide
  have above : ¬ (497 : UInt32) < 10 := by decide
  simp [scrolled, renderViewport, clearHistoryRow, row, first, count, top, full, bottom,
    above]

/--
One more line drops the oldest one from the ring, and the view moves on with it.

The character of the line that is now eleventh from the top stands at the beginning of its row.
-/
theorem consoleRun_window_dropped :
    (consoleRun (consoleClear bootConsole) manyLines).viewportTop <
        (consoleRun (consoleClear bootConsole) (manyLines ++ [.putChar 10])).historyFirstRow ∧
      (consoleRun (consoleClear bootConsole) (manyLines ++ [.putChar 10])).vgaMemory.get 800 =
        vgaEntry 33 0x07 := by
  obtain ⟨window, follows⟩ := consoleRun_window bootConsole (manyLines ++ [.putChar 10]) manyLines_few
  have moves := follows manyLines 10 (List.prefix_refl _)
  have view := manyLines_view
  obtain ⟨line, -, written, character⟩ := written_manyLines bootConsole.currentColor
  -- What the calls are does not matter any more.
  generalize manyLines = calls at *
  have last : consoleRun (consoleClear bootConsole) (calls ++ [.putChar 10]) =
      consolePutChar (consoleRun (consoleClear bootConsole) calls) 10 := List.foldl_append
  have next : writtenBy bootConsole.currentColor (calls ++ [.putChar 10]) = ⟨line, 521, 0⟩ := by
    unfold writtenBy at written ⊢
    rw [List.foldl_append, written]
    rfl
  rw [next] at window
  obtain ⟨row, first, count, top⟩ := view
  rw [last] at window moves ⊢
  generalize consoleRun (consoleClear bootConsole) calls = s at *
  obtain ⟨scrolled, after⟩ := lineFeed_view row first count top
  refine ⟨moves scrolled (by rw [after, top]; decide), ?_⟩
  have shown := @Window.shown _ _ window 10 0 (by decide) (by decide)
  rw [after] at shown
  change 20 ≤ 521 → 521 < 532 → _ = line 20 0 at shown
  exact (shown (by decide) (by decide)).trans character

end Example

end MyOS.Console
