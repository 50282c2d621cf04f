import AssetPress.Text.Utf8

/-!
# Text without terminal controls

Texts that come from the user may hold controls: single ones, such as the bell, and sequences
behind an escape that steer a terminal.  What is shown to the user is free of them; of the controls
only those remain that are blanks or line ends.  A sequence is followed byte by byte
(`Control.feed`), and one that is broken off at the end of the text is left out.  Main statements:
`shownBytes_of_isShown` (what holds no controls is shown as it is) and
`escapeByte_not_mem_shownBytes` (no escape is ever shown).
-/

namespace AssetPress

/-! ### Sequences -/

/-- How far a sequence has been read. -/
inductive Control where
  /-- No sequence has begun. -/
  | none
  /-- An escape alone. -/
  | escape
  /-- An escape and marks that lead to its last character. -/
  | escapeMarks
  /-- A control with parameters: its beginning, its parameters, the marks behind them, and one that
  has gone wrong. -/
  | begun
  | parameters
  | marks
  | faulty
  /-- A device command, likewise, and what is passed on to the device. -/
  | deviceBegun
  | deviceParameters
  | deviceMarks
  | deviceFaulty
  | devicePassed
  /-- A command to the terminal itself, up to the bell. -/
  | command
  /-- A text for something else, up to its end. -/
  | message
  deriving DecidableEq, Repr

namespace Control

def escapeByte : UInt8 := 27

/-- Whether a byte is a control that is shown: a tab, a line end or a form feed. -/
def isBlank (b : UInt8) : Bool := b == 9 || b == 10 || b == 12 || b == 13

/-- Whether a byte is shown where no sequence has begun. -/
def isShown (b : UInt8) : Bool := isBlank b || (32 ≤ b && b != 127)

/-- What the byte behind an escape begins. -/
def behindEscape (b : UInt8) : Control :=
  if b < 0x20 ∨ 0x7f ≤ b then escape
  else if b ≤ 0x2f then escapeMarks
  else if b = 0x50 then deviceBegun
  else if b = 0x58 ∨ b = 0x5e ∨ b = 0x5f then message
  else if b = 0x5b then begun
  else if b = 0x5d then command
  else none

/-- A byte of a control with parameters. -/
def behindParameters (state : Control) (b : UInt8) : Control :=
  if b < 0x20 ∨ 0x7f ≤ b then state
  else if 0x40 ≤ b then none
  else
    match state with
    | begun => if b ≤ 0x2f then marks else parameters
    | parameters => if b ≤ 0x2f then marks else if b ≤ 0x3b then parameters else faulty
    | marks => if b ≤ 0x2f then marks else faulty
    | _ => faulty

/-- A byte of a device command. -/
def behindDevice (state : Control) (b : UInt8) : Control :=
  if b < 0x20 ∨ 0x7f ≤ b then state
  else if 0x40 ≤ b then devicePassed
  else
    match state with
    | deviceBegun => if b ≤ 0x2f then deviceMarks else deviceParameters
    | deviceParameters =>
        if b ≤ 0x2f then deviceMarks else if b ≤ 0x3b then deviceParameters else deviceFaulty
    | deviceMarks => if b ≤ 0x2f then deviceMarks else deviceFaulty
    | _ => deviceFaulty

/-- The state behind one more byte.  An escape begins a new sequence wherever it stands, and two
controls end any sequence. -/
def next (state : Control) (b : UInt8) : Control :=
  if b = escapeByte then escape
  else if b = 0x18 ∨ b = 0x1a then none
  else
    match state with
    | none => none
    | escape => behindEscape b
    | escapeMarks => if 0x30 ≤ b ∧ b < 0x7f then none else escapeMarks
    | begun | parameters | marks | faulty => behindParameters state b
    | deviceBegun | deviceParameters | deviceMarks => behindDevice state b
    | deviceFaulty | devicePassed | message => if b = 0x9c then none else state
    | command => if b = 7 then none else command

/-- Whether blanks are shown even inside a sequence of this kind. -/
def showsBlanks : Control → Bool
  | none => true
  | escape => true
  | escapeMarks => true
  | begun => true
  | parameters => true
  | marks => true
  | faulty => true
  | _ => false

def shows (state : Control) (b : UInt8) : Bool :=
  match state with
  | none => isShown b
  | _ => state.showsBlanks && isBlank b

end Control

/-! ### Showing -/

/-- How a text is shown: rendered as a whole, or written to an output byte by byte.  They differ
where a sequence is interrupted by a blank or holds characters that are not plain: a rendering
takes the sequence for ended at the blank, and an output goes on with it at the next control. -/
inductive Showing where
  | rendered
  | written
  deriving DecidableEq, Repr

namespace Showing

/-- Whether a byte continues a character. -/
def isTrailing (b : UInt8) : Bool := 0x80 ≤ b && b < 0xc0

/-- Whether a rendering shows a byte.  The rest of a character is shown where its beginning is:
`running` says that the byte before was shown. -/
def keeps (state : Control) (running : Bool) (b : UInt8) : Bool :=
  if isTrailing b then running else state.shows b

def render (state : Control) (running : Bool) : Bytes → Bytes
  | [] => []
  | b :: rest =>
      if keeps state running b then b :: render .none true rest
      else render (state.next b) false rest

/-- What is written, behind `state`; `paused` is a sequence that a blank has interrupted. -/
def write (state paused : Control) : Bytes → Bytes
  | [] => []
  | b :: rest =>
      if state.shows b then
        let kept := if 0x80 ≤ b then .none else if state = .none then paused else state
        b :: write .none kept rest
      else if state = .none then
        let resumed := paused.next b
        write resumed resumed rest
      else
        let left := state.next b
        write left left rest

def shownBytes (s : Showing) (bytes : Bytes) : Bytes :=
  match s with
  | rendered => render .none true bytes
  | written => write .none .none bytes

def shown (s : Showing) (text : String) : String := Utf8.lossy (s.shownBytes (Utf8.encode text))

/-! ### Laws -/

theorem keeps_of_isShown {b : UInt8} (h : Control.isShown b = true) :
    keeps .none true b = true := by
  unfold keeps
  split
  · rfl
  · exact h

theorem render_of_isShown {bytes : Bytes} (h : ∀ b ∈ bytes, Control.isShown b = true) :
    render .none true bytes = bytes := by
  induction bytes with
  | nil => rfl
  | cons b rest ih =>
      rw [render, if_pos (keeps_of_isShown (h b List.mem_cons_self)),
        ih fun c hc => h c (List.mem_cons_of_mem _ hc)]

theorem write_of_isShown {bytes : Bytes} (h : ∀ b ∈ bytes, Control.isShown b = true) :
    write .none .none bytes = bytes := by
  induction bytes with
  | nil => rfl
  | cons b rest ih =>
      have hb : Control.shows .none b = true := h b List.mem_cons_self
      rw [write, if_pos hb, if_pos rfl, ite_self]
      exact congrArg (b :: ·) (ih fun c hc => h c (List.mem_cons_of_mem _ hc))

theorem shownBytes_of_isShown (s : Showing) {bytes : Bytes}
    (h : ∀ b ∈ bytes, Control.isShown b = true) : s.shownBytes bytes = bytes := by
  cases s with
  | rendered => exact render_of_isShown h
  | written => exact write_of_isShown h

theorem shows_escapeByte (state : Control) : state.shows Control.escapeByte = false := by
  cases state <;> decide

theorem keeps_escapeByte (state : Control) (running : Bool) :
    keeps state running Control.escapeByte = false :=
  (if_neg (by decide : ¬ isTrailing Control.escapeByte = true)).trans (shows_escapeByte state)

theorem escapeByte_not_mem_shownBytes (s : Showing) (bytes : Bytes) :
    Control.escapeByte ∉ s.shownBytes bytes := by
  have hrender (state : Control) (running : Bool) :
      Control.escapeByte ∉ render state running bytes := by
    induction bytes generalizing state running with
    | nil => exact List.not_mem_nil
    | cons b rest ih =>
        unfold render
        split
        · rename_i hshown
          intro hmem
          rcases List.mem_cons.mp hmem with rfl | hmem
          · rw [keeps_escapeByte] at hshown
            exact absurd hshown (by decide)
          · exact ih _ _ hmem
        · exact ih _ _
  have hwrite (state paused : Control) : Control.escapeByte ∉ write state paused bytes := by
    clear hrender
    induction bytes generalizing state paused with
    | nil => exact List.not_mem_nil
    | cons b rest ih =>
        unfold write
        split
        · rename_i hshown
          intro hmem
          rcases List.mem_cons.mp hmem with rfl | hmem
          · rw [shows_escapeByte] at hshown
            exact absurd hshown (by decide)
          · exact ih _ _ hmem
        · split
          · exact ih _ _
          · exact ih _ _
  cases s with
  | rendered => exact hrender _ _
  | written => exact hwrite _ _

end Showing

end AssetPress
