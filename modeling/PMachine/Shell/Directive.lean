import PMachine.Log.Filter
import PMachine.Numeral
import PMachine.Shell.Pattern

/-!
# Directives

A setting of the log is a list of directives. A directive concerns the events of some origins and sets the threshold for them. Of
all the directives that concern an event the most specific decides; an event that none concerns is dropped.

A directive is written `origin[span{field}]=threshold`, and every part may be left out. A word that stands alone is a threshold
if it names one, and else an origin.
-/

namespace PMachine

namespace Threshold

/-- The upper-case names of the thresholds. The number of a threshold is its place. -/
def names : List (String × Threshold) :=
  [("OFF", none), ("ERROR", some .error), ("WARN", some .warn), ("INFO", some .info), ("DEBUG", some .debug),
    ("TRACE", some .trace)]

/-- The threshold with a number, or with a name in any ASCII case. -/
def ofChars? (cs : List Char) : Option Threshold :=
  match Numeral.readNat Numeral.maxNat64 cs with
  | .ok n => names[n]?.map (·.2)
  | .error _ => (names.find? fun t => t.1.toList = cs.map Char.toUpper).map (·.2)

end Threshold

/-- What decides on some events. -/
structure Directive where
  /-- How the origin of an event has to begin. -/
  origin : String := ""
  /-- The span that has to enclose an event. -/
  span : Option String := none
  /-- The field that an event has to have. -/
  field : Option String := none
  threshold : Threshold := some .trace
  deriving DecidableEq, Repr

namespace Directive

/-- Whether a directive concerns an event. No span encloses an event here. The message counts as a field, and a field that is
written with a value, as in `pc=3`, is none that an event has. -/
def concerns (d : Directive) (e : Event) : Bool :=
  d.span.isNone && e.origin.startsWith d.origin && d.field.all fun f => f = "message" || e.fields.any fun p => p.1 = f

/-- Whether a directive is at least as specific as another one that concerns the same event. A longer origin is more specific
than a shorter one, and among equal origins a field more than none, and of two fields the one that is later in the alphabet. -/
def refines (d other : Directive) : Bool :=
  if d.origin.length = other.origin.length then
    match d.field, other.field with
    | _, none => true
    | none, some _ => false
    | some f, some g => g ≤ f
  else other.origin.length < d.origin.length

/-- The directive that decides on an event: the most specific that concerns it, and of equally specific ones the last. -/
def deciding? (directives : List Directive) (e : Event) : Option Directive :=
  directives.foldl (fun best d => if d.concerns e && best.all d.refines then some d else best) none

/-! ## Reading a directive

The marks of a directive are looked for in its text without the blanks at both ends, but its parts are taken from the whole text,
at the same distance from its start. So a directive is read as a list of places, each with the character that is looked at and
the one that is taken, and a rest that is only taken. A word that blanks surround is therefore an origin with these blanks.
-/

/-- The characters that are taken from some places. -/
def taken (places : List (Char × Char)) : List Char := places.map (·.2)

/-- Reads the threshold behind the equals sign; if nothing stands there, everything passes. -/
def readThreshold? (d : Directive) (text : List Char) : Option Directive :=
  if text = [] then some d else (Threshold.ofChars? text).map fun threshold => { d with threshold }

/-- Reads what follows a closing bracket: nothing, or a threshold. -/
def readTail? (d : Directive) (rest : List Char) : List (Char × Char) → Option Directive
  | [] => some d
  | ('=', _) :: places => d.readThreshold? (taken places ++ rest)
  | _ => none

/-- Whether a text is the exponent of a number, or nothing: a mark, an optional sign, digits. -/
def isExponent : List Char → Bool
  | [] => true
  | c :: cs =>
    let digits := match cs with
      | '+' :: cs | '-' :: cs => cs
      | cs => cs
    (c = 'e' || c = 'E') && !digits.isEmpty && digits.all Char.isDigit

/-- Whether a text is a number that may have a fraction and an exponent: at least one digit stands before or after the point. The
words for what is no number or has no bound count too, in any ASCII case. -/
def isReal (cs : List Char) : Bool :=
  let unsigned := match cs with
    | '+' :: cs | '-' :: cs => cs
    | cs => cs
  let rest := unsigned.dropWhile Char.isDigit
  ["INF", "INFINITY", "NAN"].any (fun word => word.toList = unsigned.map Char.toUpper) ||
    match rest with
    | '.' :: fraction =>
      ((unsigned.head?.any Char.isDigit) || (fraction.head?.any Char.isDigit)) && isExponent (fraction.dropWhile Char.isDigit)
    | rest => (unsigned.head?.any Char.isDigit) && isExponent rest

/-- Whether a text may stand between braces: a name, which an equals sign and a value may follow. A value is a number or a
pattern; what follows a second equals sign does not count. -/
def isField (text : List Char) : Bool :=
  !text.isEmpty &&
    match text.dropWhile (· ≠ '=') with
    | [] => true
    | _ :: cs =>
      let value := cs.takeWhile (· ≠ '=')
      isReal value || Text.isPattern value

/-- Reads what follows an opening brace: a field, and the two closing marks. -/
def readField? (d : Directive) (rest : List Char) (places : List (Char × Char)) : Option Directive :=
  let inField (p : Char × Char) : Bool := p.1 ≠ '}'
  let field := taken (places.takeWhile inField)
  match places.dropWhile inField with
  | _ :: (']', _) :: places =>
    if isField field then { d with field := some (String.ofList field) }.readTail? rest places else none
  | _ => none

/-- Reads what follows an opening bracket: a span, which may be followed by a field. An empty span in front of a field is
none. -/
def readSpan? (d : Directive) (rest : List Char) (places : List (Char × Char)) : Option Directive :=
  let inSpan (p : Char × Char) : Bool := p.1 ≠ ']' && p.1 ≠ '{'
  let span := taken (places.takeWhile inSpan)
  match places.dropWhile inSpan with
  | [] => none
  | (']', _) :: places => { d with span := some (String.ofList span) }.readTail? rest places
  | _ :: places => { d with span := if span = [] then none else some (String.ofList span) }.readField? rest places

/-- Reads a word, and what follows it. -/
def readWord? (rest : List Char) (places : List (Char × Char)) : Option Directive :=
  let inWord (p : Char × Char) : Bool := p.1 ≠ '=' && p.1 ≠ '['
  let word := taken (places.takeWhile inWord)
  match places.dropWhile inWord with
  | [] =>
    match Threshold.ofChars? (word ++ rest) with
    | some threshold => some { threshold }
    | none => some { origin := String.ofList (word ++ rest) }
  | ('=', _) :: places => readThreshold? { origin := String.ofList word } (taken places ++ rest)
  | _ :: places => readSpan? { origin := String.ofList word } rest places

/-- Whether a word may start with a character. -/
def startsWord (c : Char) : Bool := Text.isLetterOrNumber c || c = '-' || c = ':' || c = '_'

/-- Reads a directive. -/
def ofChars? (text : List Char) : Option Directive :=
  let trimmed := ((text.dropWhile Text.isBlank).reverse.dropWhile Text.isBlank).reverse
  let rest := text.drop trimmed.length
  match trimmed.zip text with
  | [] => none
  | (c, t) :: places =>
    if c = '[' then readSpan? {} rest places
    else if startsWord c then readWord? rest ((c, t) :: places)
    else none

end Directive

namespace Filter

/-- The filter of a list of directives. -/
def ofDirectives (directives : List Directive) : Filter :=
  ⟨fun e => (Directive.deciding? directives e).any fun d => d.threshold.admits e.level⟩

/-- Reads directives divided by commas, of which none has to stand between two commas. Without any, only errors are kept. -/
def ofString? (text : String) : Option Filter :=
  match ((text.toList.splitOn ',').filter (· ≠ [])).mapM Directive.ofChars? with
  | none => none
  | some [] => some (ofThreshold (some .error))
  | some directives => some (ofDirectives directives)

/-- The filter that a setting asks for. Warnings are kept if nothing is set, or something that cannot be read. -/
def ofSetting (setting : Option String) : Filter := (setting.bind ofString?).getD warnings

end Filter

end PMachine
