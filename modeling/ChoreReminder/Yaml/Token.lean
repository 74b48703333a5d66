import ChoreReminder.Datum.Encoding
import ChoreReminder.Yaml.Scalar

/-! The tokens of a YAML document. Blocks have no marks of their own where they begin and end, so these
tokens come from the columns of what is written. A key that is not marked as such is known by the
colon after it: until the colon is seen, the place of a possible key is kept, and the tokens for it
are put in there. -/

namespace ChoreReminder.Yaml

inductive Directive where
  | version (major : Nat)
  /-- A handle, and what it stands for in tags. -/
  | handle (name meaning : String)
  | other
  deriving DecidableEq, Repr

inductive Token where
  | directive (d : Directive)
  | documentStart
  | documentEnd
  | streamEnd
  | sequenceStart
  | mappingStart
  | blockEnd
  | openBracket
  | closeBracket
  | openBrace
  | closeBrace
  | comma
  | dash
  | key
  | value
  | alias (name : String)
  | anchor (name : String)
  /-- A tag; without a handle it is written out in full. -/
  | tag (handle : Option String) (suffix : String)
  /-- A text; a plain one may denote something else. -/
  | scalar (text : String) (plain : Bool)
  deriving DecidableEq, Repr

/-! ### Tokens by their form -/

namespace Cursor

def takeName (c : Cursor) : Except Fault (String × Cursor) :=
  let (name, c) := c.takeWhile isNameChar
  if name.isEmpty then .error .malformed else .ok (String.ofList name, c)

def takeNumber (c : Cursor) : Except Fault (Nat × Cursor) :=
  let (digits, c) := c.takeWhile fun ch => (Text.asciiDigit? ch).isSome
  match Text.readNat? digits with
  | some n => .ok (n, c)
  | none => .error .malformed

def takeAnchor (c : Cursor) : Except Fault (String × Cursor) := do
  let (name, c) ← c.next.takeName
  let ends := (c.peek? 0).all fun ch => isTabOrSpace ch || isBreak ch || "?:,]\x7d%@".contains ch
    || ch.toNat = 0x60
  if ends then return (name, c) else .error .malformed

def isTagMark (c : Char) : Bool := "-;/?:@&=+$,_.!~*()[]%".contains c || c.toNat = 39

def escapedBytes : List Char → Except Fault (List Nat × Nat)
  | '%' :: a :: b :: rest =>
    match Text.asciiHex? a, Text.asciiHex? b with
    | some m, some n => (escapedBytes rest).map fun (bytes, k) => ((m * 16 + n) :: bytes, k + 3)
    | _, _ => .error .malformed
  | '%' :: _ => .error .malformed
  | _ => .ok ([], 0)

def tagChars : (fuel : Nat) → Cursor → Except Fault (List Char × Cursor)
  | 0, c => .ok ([], c)
  | fuel + 1, c => do
    let (run, c) := c.takeWhile fun ch => ch ≠ '%' && (ch.isAlphanum || isTagMark ch)
    let (bytes, n) ← escapedBytes c.rest
    if n = 0 then return (run, c)
    else
      let some units := Datum.Encoding.utf8? bytes | .error .malformed
      let some chars := units.mapM Sum.getLeft? | .error .malformed
      let (more, c) ← tagChars fuel (c.skip n)
      return (run ++ chars ++ more, c)

def takeTagChars (c : Cursor) : Except Fault (String × Cursor) := do
  let (chars, after) ← tagChars (c.rest.length + 1) c
  if after.index = c.index then .error .malformed else return (String.ofList chars, after)

def takeHandle (c : Cursor) : Except Fault (String × Cursor) :=
  if c.peek? 0 ≠ some '!' then .error .malformed
  else
    let (name, after) := c.next.takeWhile isNameChar
    if after.peek? 0 = some '!' then .ok (String.ofList ('!' :: name ++ ['!']), after.next)
    else if name.isEmpty ∧ c.peek? 1 = some ' ' then .ok ("!", c.next)
    else .error .malformed

def hasHandle (c : Cursor) : Bool :=
  ((c.rest.drop 1).takeWhile fun ch => !isSpaceOrEnd (some ch)).contains '!'

def takeTag (c : Cursor) : Except Fault (Token × Cursor) := do
  let (tag, c) ←
    if c.peek? 1 = some '<' then do
      let (suffix, c) ← (c.skip 2).takeTagChars
      if c.peek? 0 = some '>' then pure (Token.tag none suffix, c.next) else .error .malformed
    else if isGap (c.peek? 1) then pure (Token.tag none "!", c.next)
    else do
      let (handle, c) ← if c.hasHandle then c.takeHandle else pure ("!", c.next)
      let (suffix, c) ← c.takeTagChars
      pure (Token.tag (some handle) suffix, c)
  if isSpaceOrEnd (c.peek? 0) then return (tag, c) else .error .malformed

def takeDirectiveValue (name : String) (c : Cursor) : Except Fault (Directive × Cursor) :=
  let skipSpaces (c : Cursor) := c.skipWhile (· == ' ')
  if name = "YAML" then do
    let (major, c) ← (skipSpaces c).takeNumber
    if c.peek? 0 ≠ some '.' then .error .malformed
    let (_, c) ← c.next.takeNumber
    if isSpaceOrEnd (c.peek? 0) then return (.version major, c) else .error .malformed
  else if name = "TAG" then do
    let (handle, c) ← (skipSpaces c).takeHandle
    if c.peek? 0 ≠ some ' ' then .error .malformed
    let (meaning, c) ← (skipSpaces c).takeTagChars
    if isSpaceOrEnd (c.peek? 0) then return (.handle handle meaning, c) else .error .malformed
  else .ok (.other, c.skipLine)

def takeDirective (c : Cursor) : Except Fault (Directive × Cursor) := do
  let (name, c) ← c.next.takeName
  if !isSpaceOrEnd (c.peek? 0) then .error .malformed
  let (directive, c) ← takeDirectiveValue name c
  let some c := c.skipEmptyLine? | .error .malformed
  return (directive, c)

end Cursor

/-! ### The reading of all tokens -/

structure Candidate where
  /-- How many tokens stand before it. -/
  position : Nat
  /-- Nothing but a key can stand there. -/
  required : Bool
  place : Cursor

def maxKeyLength : Nat := 1024

structure Lexer where
  cursor : Cursor
  tokens : List Token := []
  /-- Column of the innermost block, and of those around it. -/
  indent : Int := -1
  outer : List Int := []
  /-- Depth of brackets and braces. -/
  depth : Nat := 0
  /-- A key may begin here. -/
  keyAllowed : Bool := true
  /-- The possible keys, each with its depth. -/
  candidates : List (Nat × Candidate) := []

namespace Lexer

def inFlow (l : Lexer) : Bool := l.depth ≠ 0

def emit (l : Lexer) (t : Token) : Lexer := { l with tokens := l.tokens ++ [t] }

def mark (l : Lexer) (t : Token) : Lexer := { l.emit t with cursor := l.cursor.next }

/-- Takes out the possible keys for which no colon can come any more. -/
def dropStale (l : Lexer) : Except Fault Lexer :=
  let isStale (k : Candidate) : Bool :=
    k.place.line ≠ l.cursor.line || maxKeyLength < l.cursor.index - k.place.index
  if l.candidates.any fun k => isStale k.2 && k.2.required then .error .malformed
  else .ok { l with candidates := l.candidates.filter fun k => !isStale k.2 }

def dropCandidate (l : Lexer) : Except Fault Lexer :=
  if l.candidates.any fun k => k.1 = l.depth && k.2.required then .error .malformed
  else .ok { l with candidates := l.candidates.filter (·.1 ≠ l.depth) }

def addCandidate (l : Lexer) : Except Fault Lexer :=
  if l.keyAllowed then do
    let l ← l.dropCandidate
    let required := !l.inFlow && l.indent == l.cursor.column
    return { l with candidates := (l.depth, ⟨l.tokens.length, required, l.cursor⟩) :: l.candidates }
  else .ok l

def unwind (column : Int) (l : Lexer) : Lexer :=
  let rec go (indent : Int) : List Int → Nat × Int × List Int
    | [] => (0, indent, [])
    | i :: rest =>
      if column < indent then
        let (n, indent, rest) := go i rest
        (n + 1, indent, rest)
      else (0, indent, i :: rest)
  if l.inFlow then l
  else
    let (n, indent, outer) := go l.indent l.outer
    { l with indent, outer, tokens := l.tokens ++ List.replicate n .blockEnd }

/-- Begins a block at a column, if none begins there already; its token goes to a position. -/
def openBlock (l : Lexer) (column : Nat) (position : Nat) (t : Token) : Lexer :=
  if l.indent < column then
    { l with
      indent := column
      outer := l.indent :: l.outer
      tokens := l.tokens.take position ++ t :: l.tokens.drop position }
  else l

def openBlockHere (l : Lexer) (t : Token) : Except Fault Lexer :=
  if l.inFlow then .ok l
  else if l.keyAllowed then .ok (l.openBlock l.cursor.column l.tokens.length t)
  else .error .malformed

def allowKey (allowed : Bool) (l : Lexer) : Lexer := { l with keyAllowed := allowed }

def closeAll (l : Lexer) : Except Fault Lexer := do
  return (← (l.unwind (-1)).dropCandidate).allowKey false

def separator (l : Lexer) (t : Token) : Except Fault Lexer := do
  let l ← l.closeAll
  return { l.emit t with cursor := l.cursor.skip 3 }

def openFlow (l : Lexer) (t : Token) : Except Fault Lexer := do
  let l ← l.addCandidate
  return { l.mark t with depth := l.depth + 1, keyAllowed := true }

def closeFlow (l : Lexer) (t : Token) : Except Fault Lexer := do
  let l ← l.dropCandidate
  return { l.mark t with depth := l.depth - 1, keyAllowed := false }

def comma (l : Lexer) : Except Fault Lexer := do
  return ((← l.dropCandidate).mark .comma).allowKey true

def dash (l : Lexer) : Except Fault Lexer := do
  return ((← (← l.openBlockHere .sequenceStart).dropCandidate).mark .dash).allowKey true

def key (l : Lexer) : Except Fault Lexer := do
  return ((← (← l.openBlockHere .mappingStart).dropCandidate).mark .key).allowKey !l.inFlow

def insertKey (l : Lexer) (k : Candidate) : Lexer :=
  let l := { l with
    candidates := l.candidates.filter (·.1 ≠ l.depth)
    tokens := l.tokens.take k.position ++ Token.key :: l.tokens.drop k.position }
  (if l.inFlow then l else l.openBlock k.place.column k.position .mappingStart).allowKey false

def value (l : Lexer) : Except Fault Lexer :=
  match l.candidates.lookup l.depth with
  | some k => .ok ((l.insertKey k).mark .value)
  | none => do
    let l ← l.openBlockHere .mappingStart
    return ((← (l.allowKey !l.inFlow).dropCandidate).mark .value)

def node (l : Lexer) (take : Cursor → Except Fault (Token × Cursor)) : Except Fault Lexer := do
  let l ← l.addCandidate
  let (t, cursor) ← take l.cursor
  return { l.emit t with cursor, keyAllowed := false }

def plain (l : Lexer) : Except Fault Lexer := do
  let l ← l.addCandidate
  let p := takePlain l.inFlow (l.indent + 1) l.cursor
  return { l.emit (.scalar (String.ofList p.text) true) with
    cursor := p.cursor, keyAllowed := p.brokenOff }

def block (l : Lexer) (folding : Bool) : Except Fault Lexer := do
  let l ← l.dropCandidate
  let (text, cursor) ← takeBlock folding l.indent l.cursor
  return { l.emit (.scalar text false) with cursor, keyAllowed := true }

def beginsPlain (l : Lexer) (c : Char) (next : Option Char) : Bool :=
  let isMark := "-?:,[]\x7b\x7d#&*!|>%@".contains c || c.toNat = 39 || c.toNat = 34 || c.toNat = 0x60
  (!isMark && !isGap (some c)) || (!isGap next && (c == '-' || (!l.inFlow && (c == '?' || c == ':'))))

def token (l : Lexer) (c : Char) : Except Fault Lexer :=
  let next := l.cursor.peek? 1
  let atSeparator := l.cursor.column = 0 && isSeparator l.cursor.rest
  if c = '%' ∧ l.cursor.column = 0 then do
    let l ← l.closeAll
    let (d, cursor) ← l.cursor.takeDirective
    return { l.emit (.directive d) with cursor }
  else if c = '-' ∧ atSeparator then l.separator .documentStart
  else if c = '.' ∧ atSeparator then l.separator .documentEnd
  else if c = '[' then l.openFlow .openBracket
  else if c = '\x7b' then l.openFlow .openBrace
  else if c = ']' then l.closeFlow .closeBracket
  else if c = '\x7d' then l.closeFlow .closeBrace
  else if c = ',' then l.comma
  else if c = '-' ∧ isGap next then l.dash
  else if c = '?' ∧ (l.inFlow ∨ isGap next) then l.key
  else if c = ':' ∧ (l.inFlow ∨ isGap next) then l.value
  else if c = '*' then l.node fun c => c.takeAnchor.map fun (name, c) => (.alias name, c)
  else if c = '&' then l.node fun c => c.takeAnchor.map fun (name, c) => (.anchor name, c)
  else if c = '!' then l.node Cursor.takeTag
  else if c = '|' ∧ !l.inFlow then l.block false
  else if c = '>' ∧ !l.inFlow then l.block true
  else if c.toNat = 39 then
    l.node fun c => (takeQuoted .single c).map fun (text, c) => (.scalar text false, c)
  else if c.toNat = 34 then
    l.node fun c => (takeQuoted .double c).map fun (text, c) => (.scalar text false, c)
  else if l.beginsPlain c next then l.plain
  else .error .malformed

/-- Reads up to the end. Each step reads a character at least. -/
def run : (fuel : Nat) → Lexer → Except Fault (List Token)
  | 0, _ => .error .malformed
  | fuel + 1, l => do
    let (broken, cursor) := l.cursor.skipGap
    let l := { l with cursor, keyAllowed := l.keyAllowed || (broken && !l.inFlow) }
    let l ← l.dropStale
    let l := l.unwind l.cursor.column
    match l.cursor.rest with
    | [] => return (← l.closeAll).tokens ++ [.streamEnd]
    | c :: _ => run fuel (← l.token c)

end Lexer

def tokens (cs : List Char) : Except Fault (List Token) :=
  if cs.all isAllowed then Lexer.run (cs.length + 1) { cursor := { rest := cs } }
  else .error .malformed

end ChoreReminder.Yaml
