import PMachine.Text.Blank
import PMachine.Shell.Letter

/-!
# Patterns

A pattern is a regular expression. What is decided here is only whether a text is one: whether its groups, classes, repetitions
and escapes are formed so that they mean something. Patterns are about text in Unicode unless a flag says otherwise, but the
properties of Unicode characters are not at hand. So classes by property, word edges and the matching of letters in any case are
refused, as long as the flag is not cleared; and once it is cleared, nothing is taken that would match a part of a character.
A repetition is not counted, so an opening brace is refused.
-/

namespace PMachine

namespace Text

namespace Pattern

/-- The flags of a point in a pattern that matter for its form. -/
structure Flags where
  unicode : Bool := true
  /-- Whether letters match in any case. -/
  anyCase : Bool := false
  /-- Whether blanks and comments are passed over. -/
  spaced : Bool := false

/-- Sets or clears the flag with a letter. -/
def Flags.set? (f : Flags) (letter : Char) (on : Bool) : Option Flags :=
  match letter with
  | 'u' => some { f with unicode := on }
  | 'i' => some { f with anyCase := on }
  | 'x' => some { f with spaced := on }
  | 'm' | 's' | 'U' | 'R' => some f
  | _ => none

/-- What stands behind the flags of a group, and the flags. -/
structure FlagList where
  flags : Flags
  /-- The letters, and the minus sign that clears the ones behind it, the last first. -/
  written : List Char
  /-- Whether the flags are those of a group that follows, and not of the group around them. -/
  opens : Bool
  rest : List Char

/-- Reads flags up to the colon or the parenthesis behind them. No letter is written twice, and the minus sign is not the
last. -/
def readFlags (f : Flags) (written : List Char) : List Char → Option FlagList
  | [] => none
  | c :: cs =>
    if c = ':' || c = ')' then
      if written.head? = some '-' then none else some ⟨f, written, c = ':', cs⟩
    else if written.contains c then none
    else if c = '-' then readFlags f (c :: written) cs
    else match f.set? c (!written.contains '-') with
      | some f => readFlags f (c :: written) cs
      | none => none

/-- What an escape stands for. -/
inductive Escape where
  /-- The character with a code point; `byte` tells that it is written as a byte. -/
  | literal (code : Nat) (byte : Bool)
  /-- The digits, the spaces or the characters of words, or all the others. -/
  | kind (others : Bool)
  /-- The start or the end of the text. -/
  | edge
  /-- The start or the end of a word, or the lack of one. -/
  | wordEdge

/-- The value of a hexadecimal digit. -/
def hexDigit? (c : Char) : Option Nat :=
  if c.isDigit then some (c.toNat - 0x30)
  else if 'a' ≤ c && c ≤ 'f' then some (c.toNat - 0x57)
  else if 'A' ≤ c && c ≤ 'F' then some (c.toNat - 0x37)
  else none

/-- Reads a character that is written as so many hexadecimal digits. -/
def readCode (digits : Nat) (cs : List Char) : Option (Escape × List Char) := do
  let values ← (cs.take digits).mapM hexDigit?
  let code := values.foldl (fun n d => 16 * n + d) 0
  if values.length = digits && Nat.isValidChar code then some (.literal code (digits = 2), cs.drop digits) else none

/-- Reads what stands behind the backslash. Of the characters that have no meaning of their own there, ASCII punctuation, blanks
and controls stand for themselves. -/
def readEscape : List Char → Option (Escape × List Char)
  | [] => none
  | c :: cs =>
    match c with
    | 'x' => readCode 2 cs
    | 'u' => readCode 4 cs
    | 'U' => readCode 8 cs
    | 'd' | 's' | 'w' => some (.kind false, cs)
    | 'D' | 'S' | 'W' => some (.kind true, cs)
    | 'A' | 'z' => some (.edge, cs)
    | 'b' | 'B' | '<' | '>' => some (.wordEdge, cs)
    | 'a' => some (.literal 0x07 false, cs)
    | 't' => some (.literal 0x09 false, cs)
    | 'n' => some (.literal 0x0A false, cs)
    | 'v' => some (.literal 0x0B false, cs)
    | 'f' => some (.literal 0x0C false, cs)
    | 'r' => some (.literal 0x0D false, cs)
    | _ => if c.toNat < 0x80 && !c.isAlphanum then some (.literal c.toNat false, cs) else none

/-- Whether an escape, or a character that stands for itself, may stand outside of a class. -/
def Flags.allows (f : Flags) : Escape → Bool
  | .literal code byte => if f.unicode then !f.anyCase else !byte || code < 0x80
  | .kind others => !f.unicode && !others
  | .edge => true
  | .wordEdge => !f.unicode

/-! ## Classes -/

/-- What stands in front of a place in a class, and may be the start of a range there. -/
inductive Bound where
  | nothing
  | literal (code : Nat)
  /-- More than one character, which cannot start a range. -/
  | kind

/-- Reads one member of a class. -/
def readMember (f : Flags) : List Char → Option (Bound × List Char)
  | [] => none
  | c :: cs =>
    let member := if c = '\\' then readEscape cs else some (.literal c.toNat false, cs)
    match member with
    | some (.literal code _, cs) => if f.unicode || code < 0x80 then some (.literal code, cs) else none
    | some (.kind others, cs) => if f.allows (.kind others) then some (.kind, cs) else none
    | _ => none

/-- Reads what may stand at the start of a class only: the mark of a complement, and hyphens or a closing bracket that stand for
themselves. -/
def readClassStart (f : Flags) (cs : List Char) : Option (List Char) :=
  if cs.head? = some '^' && !f.unicode then none
  else
    let cs := if cs.head? = some '^' then cs.drop 1 else cs
    match cs with
    | '-' :: cs => some (cs.dropWhile (· = '-'))
    | ']' :: cs => some cs
    | cs => some cs

/-- Passes over blanks and comments, where they do not count. -/
def passBlanks (f : Flags) (cs : List Char) : List Char :=
  if f.spaced then cs.dropWhile isBlank else cs

/-- Reads the members of a class up to its closing bracket, inside of `depth` more classes. Two ampersands, hyphens or tildes
combine what stands on both sides of them. -/
def readClass (f : Flags) : Nat → Nat → Bound → List Char → Option (List Char)
  | 0, _, _, _ => none
  | _ + 1, _, _, [] => none
  | fuel + 1, depth, bound, c :: cs =>
    if f.spaced && isBlank c then readClass f fuel depth bound cs
    else if f.spaced && c = '#' then readClass f fuel depth bound (cs.dropWhile (· ≠ '\n'))
    else if c = ']' then
      match depth with
      | 0 => some cs
      | depth + 1 => readClass f fuel depth .nothing cs
    else if c = '[' then
      match readClassStart f (passBlanks f cs) with
      | some cs => readClass f fuel (depth + 1) .nothing cs
      | none => none
    else if (c = '&' || c = '-' || c = '~') && cs.head? = some c then readClass f fuel depth .nothing (cs.drop 1)
    else
      match c, bound, (passBlanks f cs).head? with
      | '-', .literal first, some next =>
        if next = ']' then readClass f fuel depth (.literal c.toNat) cs
        else match readMember f (passBlanks f cs) with
          | some (.literal last, cs) => if first ≤ last then readClass f fuel depth .nothing cs else none
          | _ => none
      | '-', .kind, some next => if next = ']' then readClass f fuel depth (.literal c.toNat) cs else none
      | _, _, _ =>
        match readMember f (c :: cs) with
        | some (bound, cs) => readClass f fuel depth bound cs
        | none => none

/-! ## Groups and items -/

/-- Where in a pattern one is. -/
structure Scope where
  flags : Flags := {}
  /-- The flags around each open group. -/
  outer : List Flags := []
  /-- The names of the groups so far. -/
  names : List (List Char) := []
  /-- Whether something stands in front that can be repeated. -/
  repeatable : Bool := false

namespace Scope

/-- Opens a group with flags of its own. -/
def opened (s : Scope) (flags : Flags) : Scope :=
  { s with flags, outer := s.flags :: s.outer, repeatable := false }

/-- Whether a text may name a group. -/
def isName : List Char → Bool
  | [] => false
  | c :: cs =>
    (c = '_' || (isLetterOrNumber c && !c.isDigit)) &&
      cs.all fun d => d = '_' || d = '.' || d = '[' || d = ']' || isLetterOrNumber d

/-- Opens a group with a name, which no other group has. -/
def openNamed (s : Scope) (cs : List Char) : Option (Scope × List Char) :=
  let name := cs.takeWhile (· ≠ '>')
  match cs.dropWhile (· ≠ '>') with
  | [] => none
  | _ :: cs =>
    if isName name && !s.names.contains name then some ({ s.opened s.flags with names := name :: s.names }, cs) else none

/-- Reads what stands behind an opening parenthesis: a name, flags, or the group itself. Looking around is refused. -/
def openGroup (s : Scope) : List Char → Option (Scope × List Char)
  | '?' :: '<' :: '=' :: _ | '?' :: '<' :: '!' :: _ => none
  | '?' :: '<' :: cs | '?' :: 'P' :: '<' :: cs => s.openNamed cs
  | '?' :: cs =>
    match readFlags s.flags [] cs with
    | none => none
    | some l =>
      if l.opens then some (s.opened l.flags, l.rest)
      else if l.written = [] then none
      else some ({ s with flags := l.flags, repeatable := false }, l.rest)
  | cs => some (s.opened s.flags, cs)

/-- Closes the innermost group. -/
def closeGroup (s : Scope) : Option Scope :=
  match s.outer with
  | [] => none
  | flags :: outer => some { s with flags, outer, repeatable := true }

/-- Whether the rest of a pattern is well formed; `fuel` is at least its length. -/
def accepts : Nat → Scope → List Char → Bool
  | _, s, [] => s.outer.isEmpty
  | 0, _, _ => false
  | fuel + 1, s, c :: cs =>
    if s.flags.spaced && isBlank c then accepts fuel s cs
    else if s.flags.spaced && c = '#' then accepts fuel s (cs.dropWhile (· ≠ '\n'))
    else match c with
      | '(' => (s.openGroup (passBlanks s.flags cs)).any fun r => accepts fuel r.1 r.2
      | ')' => s.closeGroup.any fun s => accepts fuel s cs
      | '|' => accepts fuel { s with repeatable := false } cs
      | '*' | '+' | '?' => s.repeatable && accepts fuel s cs
      | '{' => false
      | '[' =>
        !(s.flags.unicode && s.flags.anyCase) &&
          ((readClassStart s.flags (passBlanks s.flags cs)).bind (readClass s.flags fuel 0 .nothing)).any fun cs =>
            accepts fuel { s with repeatable := true } cs
      | '^' | '$' => accepts fuel { s with repeatable := true } cs
      | '.' => s.flags.unicode && accepts fuel { s with repeatable := true } cs
      | '\\' =>
        (readEscape cs).any fun r => s.flags.allows r.1 && accepts fuel { s with repeatable := true } r.2
      | c => s.flags.allows (.literal c.toNat false) && accepts fuel { s with repeatable := true } cs

end Scope

end Pattern

/-- Whether a text is a pattern. -/
def isPattern (cs : List Char) : Bool := Pattern.Scope.accepts cs.length {} cs

end Text

end PMachine
