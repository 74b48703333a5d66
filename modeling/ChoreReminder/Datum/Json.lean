import ChoreReminder.Datum.Basic

/-! JSON texts. Reading goes in two passes over plain lists: characters to tokens, and tokens to one
value with a stack of open containers. Beyond the standard, the words `NaN`, `Infinity` and
`-Infinity` are numbers, half of a surrogate pair may stand alone in a text, and of two members with
one name the later value counts. Any text that is not one value is refused, without saying why. -/

namespace ChoreReminder.Datum.Json

inductive Token where
  /-- One of the six punctuation marks. -/
  | mark (c : Char)
  | text (t : LooseText)
  /-- A maximal run of characters that are neither blank nor a mark. -/
  | word (cs : List Char)

def isGap (c : Char) : Bool := c == ' ' || c == '\n' || c == '\r' || c == '\t'

def isMark (c : Char) : Bool :=
  c == '[' || c == ']' || c == '\x7b' || c == '\x7d' || c == ',' || c == ':'

inductive Glyph where
  | char (c : Char)
  /-- Half of a pair, which may have been written as an escape. -/
  | half (h : Half) (isEscape : Bool)

def Glyph.unit : Glyph → TextUnit
  | char c => .inl c
  | half h _ => .inr h

/-- Where the lexer stands. Text is collected last part first. -/
inductive Mode where
  | between
  | word (read : List Char)
  | text (read : List Glyph)
  | escape (read : List Glyph)
  /-- Inside a `\u` escape with digits still to come. -/
  | code (read : List Glyph) (left value : Nat)

/-- Adds a half that was written as an escape; it joins one before it that makes a pair with it. -/
def addHalf (read : List Glyph) (h : Half) : List Glyph :=
  match read with
  | .half high true :: rest =>
    match high.join? h with
    | some c => .char c :: rest
    | none => .half h true :: read
  | _ => .half h true :: read

def addCode (read : List Glyph) (n : Nat) : List Glyph :=
  match Half.ofCode? n with
  | some h => addHalf read h
  | none => .char (Char.ofNat n) :: read

def textOf (read : List Glyph) : LooseText := .ofUnits (read.reverse.map Glyph.unit)

def simpleEscape? (c : Char) : Option Char :=
  if c = Text.doubleQuote ∨ c = Text.backslash ∨ c = '/' then some c
  else if c = 'b' then some (Char.ofNat 8)
  else if c = 'f' then some (Char.ofNat 12)
  else if c = 'n' then some '\n'
  else if c = 'r' then some '\r'
  else if c = 't' then some '\t'
  else none

/-- Starts a token at a character that follows a finished one; `done` holds the tokens before it, last
one first. -/
def start (done : List Token) (c : Char) : List Token × Mode :=
  if isGap c then (done, .between)
  else if isMark c then (.mark c :: done, .between)
  else if c = Text.doubleQuote then (done, .text [])
  else (done, .word [c])

def advance : List Token × Mode → Char → Option (List Token × Mode)
  | (done, .between), c => some (start done c)
  | (done, .word read), c =>
    if isGap c || isMark c || c == Text.doubleQuote then some (start (.word read.reverse :: done) c)
    else some (done, .word (c :: read))
  | (done, .text read), c =>
    if c = Text.doubleQuote then some (.text (textOf read) :: done, .between)
    else if c = Text.backslash then some (done, .escape read)
    else if c.toNat < 0x20 then none
    else some (done, .text (.char c :: read))
  | (done, .escape read), c =>
    if c = 'u' then some (done, .code read 4 0)
    else (simpleEscape? c).map fun c => (done, .text (.char c :: read))
  | (done, .code read left value), c => do
    let d ← Text.asciiHex? c
    let value := value * 16 + d
    if left ≤ 1 then some (done, .text (addCode read value))
    else some (done, .code read (left - 1) value)

/-- Half of a pair that stands in the document itself may be part of a quoted text only. -/
def advanceUnit (state : List Token × Mode) (u : TextUnit) : Option (List Token × Mode) :=
  match u, state with
  | .inl c, state => advance state c
  | .inr h, (done, .text read) => some (done, .text (.half h false :: read))
  | .inr _, _ => none

def tokens? (us : List TextUnit) : Option (List Token) := do
  match ← us.foldlM advanceUnit ([], .between) with
  | (done, .between) => some done.reverse
  | (done, .word read) => some (.word read.reverse :: done).reverse
  | _ => none

def digits (cs : List Char) : List Char × List Char := cs.span fun c => (Text.asciiDigit? c).isSome

def wholePart? (cs : List Char) : Option (List Char × List Char) :=
  match digits cs with
  | ([], _) => none
  | ('0' :: _ :: _, _) => none
  | parts => some parts

def fraction? : List Char → Option (List Char × List Char)
  | '.' :: rest =>
    match digits rest with
    | ([], _) => none
    | parts => some parts
  | cs => some ([], cs)

def exponent? : List Char → Option (Option Int)
  | [] => some none
  | e :: rest =>
    if e = 'e' ∨ e = 'E' then do
      let (negative, body) := Text.splitSign rest
      let n ← Text.readNat? body
      return some (Text.signed negative n)
    else none

def number? (cs : List Char) : Option Datum := do
  let (negative, body) := match cs with
    | '-' :: rest => (true, rest)
    | _ => (false, cs)
  let (whole, rest) ← wholePart? body
  let (frac, rest) ← fraction? rest
  let exp ← exponent? rest
  let value := Text.ofDigits 10 ((whole ++ frac).filterMap Text.asciiDigit?)
  if frac.isEmpty ∧ exp = none then
    if whole.length ≤ Text.maxDigits then some (.int (Text.signed negative value)) else none
  else some (.real (.ofDecimal negative value (exp.getD 0 - frac.length)))

def word? (cs : List Char) : Option Datum :=
  if cs = "null".toList then some .null
  else if cs = "true".toList then some (.bool true)
  else if cs = "false".toList then some (.bool false)
  else if cs = "NaN".toList then some (.real .notANumber)
  else if cs = "Infinity".toList then some (.real (.infinite false))
  else if cs = "-Infinity".toList then some (.real (.infinite true))
  else number? cs

inductive Frame where
  | list (done : List Datum)
  | obj (done : List (String × Datum))
  /-- An object whose member of this name waits for its value. -/
  | member (done : List (String × Datum)) (name : LooseText)

inductive Expect where
  | value
  /-- A value, or the end of the list just opened. -/
  | valueOrEnd
  | name
  /-- A name, or the end of the object just opened. -/
  | nameOrEnd
  | colon
  /-- A comma, or the end of the container. -/
  | more
  | finished (d : Datum)

def place (d : Datum) : List Frame → Option (Expect × List Frame)
  | [] => some (.finished d, [])
  | .list done :: stack => some (.more, .list (d :: done) :: stack)
  | .member done name :: stack =>
    let m := named name d
    some (.more, .obj (setMember m.1 m.2 done) :: stack)
  | .obj _ :: _ => none

def takeValue (stack : List Frame) : Token → Option (Expect × List Frame)
  | .text t => place (.ofText t) stack
  | .word cs => (word? cs).bind (place · stack)
  | .mark '[' => some (.valueOrEnd, .list [] :: stack)
  | .mark '\x7b' => some (.nameOrEnd, .obj [] :: stack)
  | .mark _ => none

def step (t : Token) : Expect × List Frame → Option (Expect × List Frame)
  | (.value, stack) => takeValue stack t
  | (.valueOrEnd, stack) =>
    match t, stack with
    | .mark ']', .list done :: outer => place (.list done.reverse) outer
    | t, stack => takeValue stack t
  | (.name, .obj done :: outer) =>
    match t with
    | .text t => some (.colon, .member done t :: outer)
    | _ => none
  | (.nameOrEnd, .obj done :: outer) =>
    match t with
    | .text t => some (.colon, .member done t :: outer)
    | .mark '\x7d' => place (.obj done) outer
    | _ => none
  | (.colon, stack) =>
    match t with
    | .mark ':' => some (.value, stack)
    | _ => none
  | (.more, .list done :: outer) =>
    match t with
    | .mark ',' => some (.value, .list done :: outer)
    | .mark ']' => place (.list done.reverse) outer
    | _ => none
  | (.more, .obj done :: outer) =>
    match t with
    | .mark ',' => some (.name, .obj done :: outer)
    | .mark '\x7d' => place (.obj done) outer
    | _ => none
  | _ => none

def readUnits? (us : List TextUnit) : Option Datum := do
  let ts ← tokens? us
  match ← ts.foldlM (fun state t => step t state) (.value, []) with
  | (.finished d, _) => some d
  | _ => none

def read? (cs : List Char) : Option Datum := readUnits? (cs.map .inl)

def writeChar (c : Char) : List Char :=
  if c = Text.doubleQuote ∨ c = Text.backslash then [Text.backslash, c]
  else if c.toNat < 0x20 then Text.backslash :: 'u' :: Text.fixedDigits 16 4 c.toNat
  else [c]

def writeText (s : String) : String :=
  String.ofList (Text.doubleQuote :: s.toList.flatMap writeChar ++ [Text.doubleQuote])

def writeHalved (t : HalvedText) : String :=
  String.ofList (Text.doubleQuote :: t.units.flatMap (·.elim writeChar Half.escape) ++ [Text.doubleQuote])

mutual

def write : Datum → String
  | .null => "null"
  | .bool b => if b then "true" else "false"
  | .int i => toString i
  | .real .notANumber => "NaN"
  | .real (.infinite negative) => if negative then "-Infinity" else "Infinity"
  | .real x => x.text
  | .str s => writeText s
  | .halved t => writeHalved t
  | .list items => "[" ++ ", ".intercalate (writeItems items) ++ "]"
  | .obj members => "\x7b" ++ ", ".intercalate (writeMembers members) ++ "\x7d"
  | .under _ d => write d
  | .foreign _ => "null"

def writeItems : List Datum → List String
  | [] => []
  | d :: rest => write d :: writeItems rest

def writeMembers : List (String × Datum) → List String
  | [] => []
  | (_, .under name d) :: rest => (writeHalved name ++ ": " ++ write d) :: writeMembers rest
  | (name, d) :: rest => (writeText name ++ ": " ++ write d) :: writeMembers rest

end

/-! ### The text that is sent -/

def compactChar (c : Char) : List Char :=
  let short := [('\n', 'n'), ('\r', 'r'), ('\t', 't'), (Char.ofNat 8, 'b'), (Char.ofNat 12, 'f')]
  match short.lookup c with
  | some letter => [Text.backslash, letter]
  | none => writeChar c

def compactText (us : List TextUnit) : List TextUnit :=
  let quote : TextUnit := .inl Text.doubleQuote
  quote :: us.flatMap (·.elim (fun c => (compactChar c).map .inl) fun h => [.inr h]) ++ [quote]

def between (start finish : Char) (parts : List (List TextUnit)) : List TextUnit :=
  .inl start :: [.inl ','].intercalate parts ++ [.inl finish]

mutual

/-- The JSON text without blanks, in which halves of surrogate pairs stand as they are. -/
def compact : Datum → List TextUnit
  | .str s => compactText (s.toList.map .inl)
  | .halved t => compactText t.units
  | .list items => between '[' ']' (compactItems items)
  | .obj members => between '\x7b' '\x7d' (compactMembers members)
  | .under _ d => compact d
  | d => (write d).toList.map .inl

def compactItems : List Datum → List (List TextUnit)
  | [] => []
  | d :: rest => compact d :: compactItems rest

def compactMembers : List (String × Datum) → List (List TextUnit)
  | [] => []
  | (_, .under name d) :: rest => (compactText name.units ++ .inl ':' :: compact d) :: compactMembers rest
  | (name, d) :: rest =>
    (compactText (name.toList.map .inl) ++ .inl ':' :: compact d) :: compactMembers rest

end

end ChoreReminder.Datum.Json
