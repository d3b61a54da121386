import MyOS.Lib.FixedArray

/-! The text console: a cursor, a ring with the last lines, and a view that scrolls over them. -/

namespace MyOS.Console

/-- How many characters a row has. -/
def vgaWidth : UInt32 := 80

/-- How many rows are in view. -/
def vgaHeight : UInt32 := 25

/-- How many rows the ring holds. -/
def consoleHistoryLines : UInt32 := 512

/-- The variables of the console, and the memory of the screen. Rows are counted from the first one. -/
structure ConsoleState where
  cursorRow : UInt32
  cursorCol : UInt32
  viewportTop : UInt32
  historyFirstRow : UInt32
  historyRowCount : UInt32
  currentColor : UInt8
  history : FixedArray 512 (FixedArray 80 UInt16)
  vgaMemory : FixedArray 2000 UInt16

/-- `vga_entry`: a character with its colour. -/
def vgaEntry (ch color : UInt8) : UInt16 := ch.toUInt16 ||| (color.toUInt16 <<< 8)

/-- `history_slot`: where the ring holds a row. -/
def historySlot (absoluteRow : UInt32) : Nat := (absoluteRow % consoleHistoryLines).toNat

section Code

variable (s : ConsoleState)

/-- `clear_history_row` -/
def clearHistoryRow (absoluteRow : UInt32) (color : UInt8) : ConsoleState :=
  -- A row without text is a row of spaces in a colour.
  { s with history := s.history.set (historySlot absoluteRow) (FixedArray.fill (vgaEntry 32 color)) }

/-- A character is stored in a row of the ring. -/
def setHistoryCell (absoluteRow col : UInt32) (entry : UInt16) : ConsoleState :=
  let slot := historySlot absoluteRow
  -- Only the place of the row in the ring changes.
  { s with history := s.history.set slot ((s.history.get slot).set col.toNat entry) }

/-- `bottom_viewport_top`: where the view begins that ends with the last row. -/
def bottomViewportTop : UInt32 :=
  -- The first screen fills from the top, and only then the view moves.
  if s.cursorRow + 1 ≤ vgaHeight then 0 else s.cursorRow - (vgaHeight - 1)

/-- `render_viewport`: draw the rows in view. -/
def renderViewport : ConsoleState :=
  -- Rows that the ring no longer holds are drawn empty.
  let historyLastRow := s.historyFirstRow + s.historyRowCount
  { s with vgaMemory := FixedArray.ofFn fun at_ =>
      -- The two loops go through the places of the screen, row by row.
      let absoluteRow := s.viewportTop + UInt32.ofNat (at_ / 80)
      if absoluteRow ≥ s.historyFirstRow ∧ absoluteRow < historyLastRow then
        (s.history.get (historySlot absoluteRow)).get (at_ % 80)
      else vgaEntry 32 s.currentColor }

/-- `clamp_viewport`: move the view to rows that are kept. -/
def clampViewport : ConsoleState :=
  -- The end of the text goes before the oldest row.
  let bottom := bottomViewportTop s
  let s := if s.viewportTop < s.historyFirstRow then { s with viewportTop := s.historyFirstRow } else s
  if s.viewportTop > bottom then { s with viewportTop := bottom } else s

/-- `advance_to_next_line`: begin a new row, which takes the place of the oldest one in a full ring. -/
def advanceToNextLine : ConsoleState :=
  -- The column is set by the caller.
  let s := { s with cursorRow := s.cursorRow + 1 }
  -- A full ring forgets its oldest row.
  let s := if s.historyRowCount < consoleHistoryLines then
      { s with historyRowCount := s.historyRowCount + 1 }
    else { s with historyFirstRow := s.historyFirstRow + 1 }
  clampViewport (clearHistoryRow s s.cursorRow s.currentColor)

/-- `console_is_scrolled`: whether the view ends before the last row. -/
def consoleIsScrolled : Bool := s.viewportTop != bottomViewportTop s

/-- `console_clear` -/
def consoleClear : ConsoleState :=
  -- The colour stays as it is.
  let s := { s with
    cursorRow := 0
    cursorCol := 0
    viewportTop := 0
    historyFirstRow := 0
    historyRowCount := 1 }
  renderViewport (clearHistoryRow s 0 s.currentColor)

/-- The part of `console_put_char` that stores the character and moves the cursor. -/
def storeChar (c : UInt8) : ConsoleState :=
  -- A line feed begins a new row.
  if c == 10 then advanceToNextLine { s with cursorCol := 0 }
  -- A backspace goes back one place in the row, but not to the row before.
  else if c == 8 then
    if s.cursorCol > 0 then
      let s := { s with cursorCol := s.cursorCol - 1 }
      setHistoryCell s s.cursorRow s.cursorCol (vgaEntry 32 s.currentColor)
    else s
  else
    -- Any other character is stored, and a full row ends by itself.
    let s := setHistoryCell s s.cursorRow s.cursorCol (vgaEntry c s.currentColor)
    let s := { s with cursorCol := s.cursorCol + 1 }
    if s.cursorCol ≥ vgaWidth then advanceToNextLine { s with cursorCol := 0 } else s

/-- `console_put_char` -/
def consolePutChar (c : UInt8) : ConsoleState :=
  -- The view follows the text only if it showed the end of it.
  let followBottom := !consoleIsScrolled s
  let s := storeChar s c
  renderViewport
    (if followBottom then { s with viewportTop := bottomViewportTop s } else clampViewport s)

/-- The view begins at another row, and is drawn anew where that row is not the same. -/
def moveViewport (viewportTop : UInt32) : ConsoleState :=
  -- A view that does not move is not drawn again.
  if viewportTop != s.viewportTop then renderViewport { s with viewportTop } else s

/-- `console_scroll_up` -/
def consoleScrollUp (lines : UInt32) : ConsoleState :=
  -- The view goes up as far as the oldest row.
  moveViewport s (if lines > s.viewportTop - s.historyFirstRow then s.historyFirstRow
    else s.viewportTop - lines)

/-- `console_scroll_down` -/
def consoleScrollDown (lines : UInt32) : ConsoleState :=
  -- The view goes down as far as the end of the text.
  let bottom := bottomViewportTop s
  moveViewport s (if s.viewportTop + lines > bottom then bottom else s.viewportTop + lines)

/-- `console_scroll_to_bottom` -/
def consoleScrollToBottom : ConsoleState := moveViewport s (bottomViewportTop s)

end Code

end MyOS.Console
