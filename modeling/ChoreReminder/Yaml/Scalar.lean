import ChoreReminder.Calendar.Stamp
import ChoreReminder.Yaml.Cursor

/-! The texts of scalars as they are written in a YAML document: in quotes, plain, or as a block of
lines. A text that goes on over several lines is folded: one line break becomes a blank, of
several the first is dropped. -/

namespace ChoreReminder.Yaml

inductive Fault where
  /-- The text is no document. -/
  | malformed
  /-- A character is asked for by a number that no character has. -/
  | character
  /-- The number of a character does not fit a word. -/
  | characterWord
  /-- What remains of an integer when sign and mark are taken off is no numeral. -/
  | numeral (base : Nat) (text : String)
  | decimal (text : String)
  /-- A number without any character after its sign. -/
  | emptyNumber
  | truthValue
  /-- A text that is tagged as a time and does not have the form of one. -/
  | time
  /-- A time that does not exist. -/
  | stamp (f : StampFault)
  deriving DecidableEq

def Fault.message : Fault → String
  | malformed => "the text is no document"
  | character => "chr() arg not in range(0x110000)"
  | characterWord => "the number of a character is too large"
  | numeral base text =>
    "invalid literal for int() with base " ++ toString base ++ ": " ++ Text.quoted text
  | decimal text => "could not convert string to float: " ++ Text.quoted text
  | emptyNumber => "a number has no digits"
  | truthValue => "a truth value is neither yes nor no"
  | time => "a time does not have the form of one"
  | stamp f => f.message

/-- The text that line breaks leave behind: the first one, and those after it. -/
def folded (first : Option Char) (more : List Char) : List Char :=
  match first with
  | none => more
  | some '\n' => if more.isEmpty then [' '] else more
  | some c => c :: more

/-! ### Texts in quotes -/

inductive Quote where
  | single
  | double
  deriving DecidableEq, Repr

def escaped? (c : Char) : Option Char :=
  ([('0', 0), ('a', 7), ('b', 8), ('t', 9), ('\t', 9), ('n', 10), ('v', 11), ('f', 12), ('r', 13),
    ('e', 27), (' ', 32), ('/', 47), ('N', 0x85), ('_', 0xa0), ('L', 0x2028), ('P', 0x2029),
    (Char.ofNat 34, 34), (Char.ofNat 92, 92)].lookup c).map Char.ofNat

def escapeWidth? (c : Char) : Option Nat := [('x', 2), ('u', 4), ('U', 8)].lookup c

def charOfCode (n : Nat) : Except Fault Char :=
  if n < 0x110000 then .ok (if 0xd800 ≤ n ∧ n < 0xe000 then '\ufffd' else Char.ofNat n)
  else if n < twoPow 31 then .error .character
  else .error .characterWord

inductive QuotedState where
  /-- In a line, after some blanks. -/
  | line (blanks : List Char)
  /-- After line breaks, in the blanks before the text goes on. -/
  | breaks (first : Option Char) (more : List Char)
  /-- After a quote that may be half of a written quote. -/
  | quote
  /-- After the sign of an escape. -/
  | escape
  /-- In the digits of an escape. -/
  | code (left value : Nat)

inductive QuotedStep where
  | go (text : List Char) (state : QuotedState)
  /-- The text ends with this character. -/
  | closed (text : List Char)
  /-- The text ended before this character. -/
  | closedBefore

/-- After a line break: a line that separates documents does not belong into a text. -/
def afterBreak (rest : List Char) (state : QuotedState) : Except Fault QuotedStep :=
  if isSeparator rest then .error .malformed else .ok (.go [] state)

def lineStep (q : Quote) (text blanks : List Char) (c : Char) (rest : List Char) :
    Except Fault QuotedStep :=
  if isTabOrSpace c then .ok (.go text (.line (blanks ++ [c])))
  else if isBreak c then (afterBreak rest (.breaks (some (breakText c)) [])).map fun
    | .go _ state => .go text state
    | other => other
  else
    let text := text ++ blanks
    match q with
    | .single => .ok (if c.toNat = 39 then .go text .quote else .go (text ++ [c]) (.line []))
    | .double =>
      .ok (if c.toNat = 34 then .closed text
        else if c.toNat = 92 then .go text .escape
        else .go (text ++ [c]) (.line []))

def quotedStep (q : Quote) (state : QuotedState) (c : Char) (rest : List Char) :
    Except Fault QuotedStep :=
  match state with
  | .line blanks => lineStep q [] blanks c rest
  | .breaks first more =>
    if isTabOrSpace c then .ok (.go [] state)
    else if isBreak c then afterBreak rest (.breaks first (more ++ [breakText c]))
    else lineStep q (folded first more) [] c rest
  | .quote => .ok (if c.toNat = 39 then .go [c] (.line []) else .closedBefore)
  | .escape =>
    match escaped? c, escapeWidth? c with
    | some e, _ => .ok (.go [e] (.line []))
    | none, some width => .ok (.go [] (.code width 0))
    | none, none => if isBreak c then afterBreak rest (.breaks none []) else .error .malformed
  | .code left value =>
    match Text.asciiHex? c with
    | none => .error .malformed
    | some d =>
      let value := value * 16 + d
      if left ≤ 1 then (charOfCode value).map fun ch => .go [ch] (.line [])
      else .ok (.go [] (.code (left - 1) value))

def readQuoted (q : Quote) : QuotedState → List Char → Except Fault (List Char × Nat)
  | .quote, [] => .ok ([], 0)
  | _, [] => .error .malformed
  | state, c :: rest => do
    match ← quotedStep q state c rest with
    | .closed text => return (text, 1)
    | .closedBefore => return ([], 0)
    | .go text state =>
      let (more, n) ← readQuoted q state rest
      return (text ++ more, n + 1)

def takeQuoted (q : Quote) (c : Cursor) : Except Fault (String × Cursor) := do
  let c := c.next
  let (text, n) ← readQuoted q (.line []) c.rest
  return (String.ofList text, c.skip n)

/-! ### Plain texts -/

def isFlowMark (c : Char) : Bool :=
  c == ',' || c == '[' || c == ']' || c == '{' || c == '}'

def endsPlain (inFlow : Bool) (c : Char) (next : Option Char) : Bool :=
  isTabOrSpace c || isBreak c
    || (c == ':' && (isGap next || (inFlow && next.any isFlowMark)))
    || (inFlow && (c == '?' || isFlowMark c))

def plainLength (inFlow : Bool) : List Char → Nat
  | [] => 0
  | c :: rest => if endsPlain inFlow c rest.head? then 0 else plainLength inFlow rest + 1

/-- The line breaks and blanks that follow a line break. A line that separates documents ends the
text for good: then there is nothing. -/
def plainBreaks : (fuel : Nat) → Cursor → Option (List Char) × Cursor
  | 0, c => (some [], c)
  | fuel + 1, c =>
    let c := c.skipWhile (· == ' ')
    match c.takeBreak? with
    | none => (some [], c)
    | some (b, c) =>
      if isSeparator c.rest then (none, c)
      else
        let (more, c) := plainBreaks fuel c
        (more.map (b :: ·), c)

def plainGap (c : Cursor) : List Char × Bool × Cursor :=
  let (blanks, c) := c.takeWhile (· == ' ')
  match c.takeBreak? with
  | none => (blanks, false, c)
  | some (b, c) =>
    if isSeparator c.rest then ([], true, c)
    else
      match plainBreaks c.rest.length c with
      | (none, c) => ([], true, c)
      | (some more, c) => (folded (some b) more, true, c)

/-- A plain text as it was read. The flag says that the reading ended at the start of a line. -/
structure Plain where
  text : List Char
  brokenOff : Bool
  cursor : Cursor

def takeRuns (inFlow : Bool) (indent : Int) : (fuel : Nat) → (gap : List Char) → Plain → Plain
  | 0, _, p => p
  | fuel + 1, gap, p =>
    let n := plainLength inFlow p.cursor.rest
    if p.cursor.peek? 0 = some '#' ∨ n = 0 then p
    else
      let text := p.text ++ gap ++ p.cursor.rest.take n
      let (gap, broken, cursor) := plainGap (p.cursor.skip n)
      let p : Plain := ⟨text, broken, cursor⟩
      if gap.isEmpty || (!inFlow && cursor.column < indent) then p
      else takeRuns inFlow indent fuel gap p

def takePlain (inFlow : Bool) (indent : Int) (c : Cursor) : Plain :=
  takeRuns inFlow indent (c.rest.length + 1) [] ⟨[], false, c⟩

/-! ### Blocks of lines -/

inductive Chomping where
  | strip
  | clip
  | keep
  deriving DecidableEq, Repr

def chomping? (c : Option Char) : Option Chomping :=
  match c with
  | some '+' => some .keep
  | some '-' => some .strip
  | _ => none

def indentDigit? (c : Option Char) : Option Nat := c.bind Text.asciiDigit?

def blockSigns (c : Cursor) : Except Fault (Chomping × Option Nat × Cursor) := do
  let (chomping, digit, c) := match chomping? (c.peek? 0), indentDigit? (c.peek? 0) with
    | some chomping, _ => match indentDigit? (c.peek? 1) with
      | some d => (chomping, some d, c.skip 2)
      | none => (chomping, none, c.next)
    | none, some d => match chomping? (c.peek? 1) with
      | some chomping => (chomping, some d, c.skip 2)
      | none => (.clip, some d, c.next)
    | none, none => (.clip, none, c)
  if digit = some 0 ∨ !isSpaceOrEnd (c.peek? 0) then .error .malformed
  else return (chomping, digit, c)

def leadingBreaks : (fuel : Nat) → (widest : Nat) → Cursor → List Char × Nat × Cursor
  | 0, widest, c => ([], widest, c)
  | fuel + 1, widest, c =>
    let c := c.skipWhile (· == ' ')
    let widest := max widest c.column
    match c.takeBreak? with
    | none => ([], widest, c)
    | some (b, c) =>
      let (more, widest, c) := leadingBreaks fuel widest c
      (b :: more, widest, c)

def indentTo (indent : Nat) (c : Cursor) : Cursor :=
  c.skip ((c.rest.take (indent - c.column)).takeWhile (· == ' ')).length

def blockBreaks (indent : Nat) : (fuel : Nat) → Cursor → List Char × Cursor
  | 0, c => ([], c)
  | fuel + 1, c =>
    let c := indentTo indent c
    match c.takeBreak? with
    | none => ([], c)
    | some (b, c) =>
      let (more, c) := blockBreaks indent fuel c
      (b :: more, c)

def inBlock (indent : Nat) (c : Cursor) : Bool := c.column = indent && !c.rest.isEmpty

def blockLines (folding : Bool) (chomping : Chomping) (indent : Nat) :
    (fuel : Nat) → (breaks : List Char) → Cursor → List Char × Cursor
  | 0, _, c => ([], c)
  | fuel + 1, breaks, c =>
    let startsBlank := (c.peek? 0).any isTabOrSpace
    let (line, c) := c.takeWhile (!isBreak ·)
    let ended := c.takeBreak?
    let lineBreak := (ended.map (·.1)).toList
    let (more, c) := blockBreaks indent fuel ((ended.map (·.2)).getD c)
    if inBlock indent c then
      let folds := folding && lineBreak == ['\n'] && !startsBlank && !(c.peek? 0).any isTabOrSpace
      let joint := if folds then (if more.isEmpty then [' '] else []) else lineBreak
      let (text, c) := blockLines folding chomping indent fuel more c
      (breaks ++ line ++ joint ++ text, c)
    else
      let tail := match chomping with
        | .strip => []
        | .clip => lineBreak
        | .keep => lineBreak ++ more
      (breaks ++ line ++ tail, c)

def takeBlock (folding : Bool) (outer : Int) (c : Cursor) : Except Fault (String × Cursor) := do
  let (chomping, digit, c) ← blockSigns c.next
  let some c := c.skipEmptyLine? | .error .malformed
  let least := (max (outer + 1) 1).toNat
  let fuel := c.rest.length + 1
  let (indent, breaks, c) := match digit with
    | none =>
      let (breaks, widest, c) := leadingBreaks fuel 0 c
      (max least widest, breaks, c)
    | some d =>
      let indent := least + d - 1
      let (breaks, c) := blockBreaks indent fuel c
      (indent, breaks, c)
  if inBlock indent c then
    let (text, c) := blockLines folding chomping indent fuel breaks c
    return (String.ofList text, c)
  else return (String.ofList (if chomping = .keep then breaks else []), c)

end ChoreReminder.Yaml
