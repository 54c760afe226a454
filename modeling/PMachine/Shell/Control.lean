/-!
# Control sequences

A terminal takes some of the characters that it is sent for itself: the controls, and the sequences that an escape character
starts. What remains is the plain form of a text. White space is no control. Inside a sequence it is shown as well, and with it
everything up to the next control, behind which the sequence goes on.
-/

namespace PMachine

namespace Text

/-- How far a control sequence has come. -/
inductive Sequence where
  /-- There is none. -/
  | ground
  /-- Behind the escape character. -/
  | escape
  /-- Behind the first intermediate character of an escape sequence, which any other character ends. -/
  | intermediate
  /-- In a control function, which a character from `@` on ends. -/
  | function
  /-- At the start of a message to the device. -/
  | device
  /-- In the parameters of a message to the device. -/
  | deviceParameter
  /-- In the intermediate characters of a message to the device. -/
  | deviceIntermediate
  /-- In a string that only the string terminator ends. -/
  | string
  /-- In a message to the system, which a bell ends. -/
  | system
  deriving DecidableEq, Repr

/-- Whether a character is white space that moves the cursor. -/
def isLayout (c : Char) : Bool := c = '\t' || c = '\n' || c = '\x0c' || c = '\r'

/-- Whether a character is shown where there is no control sequence. -/
def isShown (c : Char) : Bool := isLayout c || (0x20 ≤ c.toNat && c.toNat ≠ 0x7F)

/-- Whether the code point of a character is one of `first` to `last`. -/
def isWithin (first last : Nat) (c : Char) : Bool := first ≤ c.toNat && c.toNat ≤ last

namespace Sequence

/-- Whether a character is shown at some point of a sequence. -/
def shows : Sequence → Char → Bool
  | .ground, c => isShown c
  | .escape, c | .intermediate, c | .function, c => isLayout c
  | _, _ => false

/-- What a character behind the escape character starts. -/
def ofChar (c : Char) : Sequence :=
  if c = '[' then .function
  else if c = ']' then .system
  else if c = 'P' then .device
  else if c = 'X' || c = '^' || c = '_' then .string
  else if isWithin 0x20 0x2F c then .intermediate
  else if isWithin 0x30 0x7E c then .ground
  else .escape

/-- How a message to the device goes on. The code points from that of `0` up to `last` stand for parameters. -/
def deviceNext (s : Sequence) (last : Nat) (c : Char) : Sequence :=
  if isWithin 0x20 0x2F c then .deviceIntermediate
  else if isWithin 0x30 last c then .deviceParameter
  else if isWithin 0x30 0x7E c then .string
  else s

/-- How a sequence goes on. The escape character starts a new one wherever it stands, and two controls cancel any. The string
terminator is a byte of the encoded text. -/
def next (s : Sequence) (c : Char) : Sequence :=
  if c = '\x1b' then .escape
  else if c = '\x18' || c = '\x1a' then .ground
  else match s with
    | .ground => .ground
    | .escape => ofChar c
    | .intermediate => if isWithin 0x30 0x7E c then .ground else .intermediate
    | .function => if isWithin 0x40 0x7E c then .ground else .function
    | .device => deviceNext .device 0x3F c
    | .deviceParameter => deviceNext .deviceParameter 0x3B c
    | .deviceIntermediate => deviceNext .deviceIntermediate 0 c
    | .string => if (String.utf8EncodeChar c).contains 0x9C then .ground else .string
    | .system => if c = '\x07' then .ground else .system

end Sequence

/-- The characters that are shown, from a point of a sequence on. Behind a character that is shown everything but a control is,
and a character beyond ASCII ends the sequence there. -/
def shown (s : Sequence) (afterShown : Bool) : List Char → List Char
  | [] => []
  | c :: cs =>
    if afterShown && isShown c then c :: shown (if c.toNat < 0x80 then s else .ground) true cs
    else if s.shows c then c :: shown (s.next c) true cs
    else shown (s.next c) false cs

/-- The plain form of a text. -/
def plain (text : String) : String := String.ofList (shown .ground false text.toList)

/-- Sets a text off by the graphic renditions with some numbers, and takes them back behind it. -/
def emphasized (renditions : List Nat) (text : String) : String :=
  String.join (renditions.map fun n => s!"\x1b[{n}m") ++ text ++ "\x1b[0m"

end Text

end PMachine
