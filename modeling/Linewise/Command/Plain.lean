/-! Text for a stream that is no terminal: control codes are left out.

A layout character inside a control code is shown and interrupts the code. From there on text is
shown as outside of codes, until the next control character takes up the code where it was left. A
shown character outside ASCII ends an interrupted code. -/
namespace Linewise

/-- How far a control code has been read. -/
inductive ControlCode where
  /-- Outside of any code. -/
  | none
  /-- After the escape character. -/
  | escape
  /-- After marks that follow the escape character. -/
  | marks
  /-- In a control sequence, which begins with `[`. -/
  | sequence
  /-- In a system command, which begins with `]`. The bell ends it. -/
  | command
  /-- At the head of a device control string, which begins with `P`. -/
  | device
  /-- In the parameters of a device control string. -/
  | parameters
  /-- After marks that follow the parameters of a device control string. -/
  | deviceMarks
  /-- In the hidden text of a device control string or of another string. -/
  | string

namespace ControlCode

/-- The control characters that are shown, since they only place what follows. -/
def isLayout (c : Char) : Bool :=
  c == '\t' || c == '\n' || c == '\x0c' || c == '\r'

def isAscii (c : Char) : Bool :=
  c.toNat < 0x80

/-- The characters that are shown outside of codes: layout and all but control characters. -/
def isText (c : Char) : Bool :=
  isLayout c || 0x20 ≤ c.toNat && c.toNat != 0x7f

def isMark (c : Char) : Bool :=
  0x20 ≤ c.toNat && c.toNat ≤ 0x2f

/-- Digits, the two separators `:` and `;`, and the private characters. -/
def isParameter (c : Char) : Bool :=
  0x30 ≤ c.toNat && c.toNat ≤ 0x3f

/-- The characters that may only stand before the parameters. -/
def isPrivate (c : Char) : Bool :=
  0x3c ≤ c.toNat && c.toNat ≤ 0x3f

def isFinal (c : Char) : Bool :=
  0x40 ≤ c.toNat && c.toNat ≤ 0x7e

/-- Strings are read byte by byte. One ends at the byte 0x9C, also where that byte belongs to the
encoding of a longer character. -/
def endsString (c : Char) : Bool :=
  !isAscii c && (String.utf8EncodeChar c).contains 0x9c

/-- The code that the character after the escape character begins. -/
def begins (c : Char) : ControlCode :=
  if c == '[' then .sequence
  else if c == ']' then .command
  else if c == 'P' then .device
  else if c == 'X' || c == '^' || c == '_' then .string
  else if isMark c then .marks
  else if isParameter c || isFinal c then .none
  else .escape

/-- How far a code is read after a character that neither begins nor cancels a code. -/
def step : ControlCode → Char → ControlCode
  | .none, _ => .none
  | .escape, c => begins c
  | .marks, c => if isParameter c || isFinal c then .none else .marks
  | .sequence, c => if isFinal c then .none else .sequence
  | .command, c => if c == '\x07' then .none else .command
  | .device, c =>
    if isMark c then .deviceMarks
    else if isParameter c then .parameters
    else if isFinal c then .string
    else .device
  | .parameters, c =>
    if isMark c then .deviceMarks
    else if isPrivate c || isFinal c then .string
    else .parameters
  | .deviceMarks, c => if isParameter c || isFinal c then .string else .deviceMarks
  | .string, c => if endsString c then .none else .string

/-- How far a code is read after a character. The escape character begins a code, and the two cancel
characters end one, wherever they stand. -/
def next (code : ControlCode) (c : Char) : ControlCode :=
  if c == '\x1b' then .escape
  else if c == '\x18' || c == '\x1a' then .none
  else code.step c

/-- Whether a character is shown. -/
def shows : ControlCode → Char → Bool
  | .none, c => isText c
  | .escape, c | .marks, c | .sequence, c => isLayout c
  | .command, _ | .device, _ | .parameters, _ | .deviceMarks, _ | .string, _ => false

/-- The characters that are shown, after a code was read so far and, if `interrupted`, text has been
shown since. -/
def visible : ControlCode → Bool → List Char → List Char
  | _, _, [] => []
  | code, interrupted, c :: s =>
    if shows (if interrupted then .none else code) c then
      c :: visible (if isAscii c then code else .none) true s
    else
      visible (code.next c) false s

end ControlCode

def plain (text : String) : String :=
  String.ofList (ControlCode.visible .none false text.toList)

end Linewise
