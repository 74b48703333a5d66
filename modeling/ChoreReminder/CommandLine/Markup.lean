import ChoreReminder.CommandLine.Colour
import ChoreReminder.Text.Blank
import ChoreReminder.Text.Casing

/-! Marked-up text on the terminal. A tag in brackets begins or ends a style and is not shown; brackets that
are no tag are shown as they are. A closing tag ends the last open tag of its name, or, without a
name, the last one of all; where there is none, the text cannot be shown. What a tag with an `@` has
behind its name is read when the tag is closed. Codes of pictures, as `:key:`, are not replaced. -/

namespace ChoreReminder

inductive MarkupFault where
  /-- No open tag has this name. -/
  | notOpen (name : String)
  /-- No tag is open at all. -/
  | nothingOpen
  /-- A colour without one of its components. -/
  | colour (word : String)
  /-- What a closed tag calls for cannot be read. -/
  | arguments (text : String)
  deriving DecidableEq, Repr

def MarkupFault.message : MarkupFault → String
  | notOpen name => "closing tag '[/" ++ name ++ "]' doesn't match any open tag"
  | nothingOpen => "closing tag '[/]' has nothing to close"
  | colour _ => "invalid literal for int() with base 10: ''"
  | arguments text => "error parsing '" ++ text ++ "'"

/-- What makes plain text of a marked-up one. The commands are the same whichever shows their results. -/
abbrev Console := String → Except MarkupFault String

namespace Markup

/-! ### Names of styles -/

def attributeNames : List String :=
  ["bold", "dim", "italic", "underline", "blink", "blink2", "reverse", "conceal", "strike",
    "underline2", "frame", "encircle", "overline"]

def attribute? (word : String) : Option String :=
  if attributeNames.contains word then some word
  else [("b", "bold"), ("d", "dim"), ("i", "italic"), ("u", "underline"), ("r", "reverse"),
    ("c", "conceal"), ("s", "strike"), ("uu", "underline2"), ("o", "overline")].lookup word

structure Style where
  /-- The attributes that are set or taken away; the latest one counts. -/
  attributes : List (String × Bool) := []
  colour : Option String := none
  ground : Option String := none
  link : Option String := none

def colour? (word : String) : Except MarkupFault (Option String) :=
  match Colour.read (Text.lowerText word) with
  | .colour => .ok (some (Text.lowerText word))
  | .other => .ok none
  | .missing => .error (.colour word)

def Style.ofWords (s : Style) : List String → Except MarkupFault (Option Style)
  | [] => .ok (some s)
  | word :: rest =>
    let low := Text.lowerText word
    if low = "on" then
      match rest with
      | [] => .ok none
      | ground :: rest => do
        match ← colour? ground with
        | some ground => ofWords { s with ground := some ground } rest
        | none => return none
    else if low = "not" then
      match rest with
      | [] => .ok none
      | word :: rest =>
        match attribute? word with
        | some a => { s with attributes := (a, false) :: s.attributes }.ofWords rest
        | none => .ok none
    else if low = "link" then
      match rest with
      | [] => .ok none
      | target :: rest => { s with link := some target }.ofWords rest
    else
      match attribute? low with
      | some a => { s with attributes := (a, true) :: s.attributes }.ofWords rest
      | none => do
        match ← colour? low with
        | some colour => ofWords { s with colour := some colour } rest
        | none => return none

def Style.words (s : Style) : List String :=
  let set := attributeNames.filterMap fun a =>
    (s.attributes.lookup a).map fun isSet => if isSet then a else "not " ++ a
  set ++ s.colour.toList ++ (s.ground.map ("on " ++ ·)).toList ++ (s.link.map ("link " ++ ·)).toList

/-- The usual form of the name of a style. Two tags belong together if their names have one usual form. -/
def usualName (cs : List Char) : Except MarkupFault String := do
  let text := String.ofList (Text.trimBy Text.isBlank cs)
  if text = "" ∨ text = "none" then return "none"
  else
    match ← Style.ofWords {} ((Text.wordsBy Text.isBlank cs).map String.ofList) with
    | some s => return if s.words.isEmpty then "none" else " ".intercalate s.words
    | none => return Text.lowerText text

/-! ### Calls in tags -/

def backslash : Char := Char.ofNat 92

inductive CallToken where
  | opening
  | closing
  | comma
  /-- A number or one of three words. -/
  | value
  | text
  deriving DecidableEq, Repr

def digitsOnly (cs : List Char) : Bool :=
  match cs with
  | '0' :: rest => rest.all (· == '0')
  | _ => !cs.isEmpty && cs.all fun c => (Text.asciiDigit? c).isSome

/-- Of what a call may hold, whole numbers, texts without backslashes, three words, and tuples of these are known. -/
def callTokens : (fuel : Nat) → List Char → Option (List CallToken)
  | _, [] => some []
  | 0, _ => none
  | fuel + 1, c :: rest =>
    let isWordChar (d : Char) : Bool := d.isAlphanum || d == '_'
    let word := (c :: rest).takeWhile isWordChar
    if c = ' ' ∨ c = '\t' then callTokens fuel rest
    else if c = '(' then (callTokens fuel rest).map (.opening :: ·)
    else if c = ')' then (callTokens fuel rest).map (.closing :: ·)
    else if c = ',' then (callTokens fuel rest).map (.comma :: ·)
    else if c = '\'' ∨ c = '"' then
      let inside := rest.takeWhile (· != c)
      if inside.any fun d => d == backslash || d == '\n' then none
      else
        match rest.drop inside.length with
        | _ :: after => (callTokens fuel after).map (.text :: ·)
        | [] => none
    else if c = '-' ∨ c = '+' then
      let number := rest.takeWhile isWordChar
      if digitsOnly number then (callTokens fuel (rest.drop number.length)).map (.value :: ·) else none
    else if digitsOnly word || ["True", "False", "None"].contains (String.ofList word) then
      (callTokens fuel (rest.drop (word.length - 1))).map (.value :: ·)
    else none

def makeValues (depth : Nat) (before : CallToken) : List CallToken → Bool
  | [] => depth == 0 && before != .opening
  | t :: rest =>
    let begins := before == .opening || before == .comma
    let goesOn :=
      match t with
      | .opening | .value => begins
      | .text => begins || before == .text
      | .comma => !begins
      | .closing => 0 < depth
    let depth :=
      match t with
      | .opening => depth + 1
      | .closing => depth - 1
      | _ => depth
    goesOn && makeValues depth t rest

/-- Whether what stands behind the name of a tag with an `@` can be read: a name, a name with a call, or values. -/
def isCall (cs : List Char) : Bool :=
  let call := Text.trimBy Text.isBlank cs
  let name := call.takeWhile fun d => d.isAlphanum || d == '_' || d == '.'
  match call.drop name.length with
  | [] => true
  | rest =>
    let values := if rest.head? = some '(' ∧ rest.getLast? = some ')' then rest else call
    ((callTokens values.length values).map (makeValues 0 .opening)).getD false

/-! ### Tags -/

inductive Piece where
  | text (cs : List Char)
  /-- What stands between brackets. -/
  | tag (cs : List Char)

def beginsTag (c : Char) : Bool := ('a' ≤ c && c ≤ 'z') || c == '#' || c == '/' || c == '@'

def tag? : List Char → Option (List Char × List Char)
  | [] => none
  | c :: rest =>
    let more := rest.takeWhile fun d => d != ']' && d != '['
    match rest.drop more.length with
    | ']' :: after => if beginsTag c then some (c :: more, after) else none
    | _ => none

/-- Splits a text at its tags. Of the backslashes before a tag two make one, and one that is left over makes
the tag a mere text; before any other bracket one backslash is dropped. -/
def pieces : (fuel : Nat) → List Char → List Piece
  | 0, cs => [.text cs]
  | fuel + 1, cs =>
    let n := (cs.takeWhile (· == backslash)).length
    let slashes (k : Nat) : List Char := List.replicate k backslash
    match cs.drop n with
    | [] => [.text cs]
    | c :: rest =>
      if c = '[' then
        match tag? rest with
        | some (tag, after) =>
          .text (slashes (n / 2))
            :: (if n % 2 = 1 then .text ('[' :: tag ++ [']']) else .tag tag) :: pieces fuel after
        | none => .text (slashes (n - 1) ++ ['[']) :: pieces fuel rest
      else .text (slashes n ++ [c]) :: pieces fuel rest

def isControl (c : Char) : Bool := [7, 8, 11, 12, 13].contains c.toNat

structure OpenTag where
  name : String
  /-- What stands behind the sign of equality. -/
  rest : List Char

def OpenTag.canEnd (t : OpenTag) : Bool := t.name.toList.head? ≠ some '@' || isCall t.rest

def close (name : String) : List OpenTag → Option (OpenTag × List OpenTag)
  | [] => none
  | tag :: rest =>
    if tag.name = name then some (tag, rest) else (close name rest).map fun (found, rest) => (found, tag :: rest)

def finish (closed : OpenTag × List OpenTag) : Except MarkupFault (List OpenTag) :=
  if closed.1.canEnd then .ok closed.2 else .error (.arguments (String.ofList closed.1.rest))

def step (isOpen : List OpenTag) (tag : List Char) : Except MarkupFault (List OpenTag) :=
  match tag.takeWhile (· != '=') with
  | '/' :: name =>
    if (Text.trimBy Text.isBlank name).isEmpty then
      match isOpen with
      | [] => .error .nothingOpen
      | last :: rest => finish (last, rest)
    else do
      let name ← usualName name
      match close name isOpen with
      | some closed => finish closed
      | none => .error (.notOpen name)
  | name => return ⟨← usualName name, (tag.dropWhile (· != '=')).drop 1⟩ :: isOpen

def shown (isOpen : List OpenTag) : List Piece → Except MarkupFault (List Char)
  | [] => .ok []
  | .text cs :: rest => (shown isOpen rest).map (cs.filter (!isControl ·) ++ ·)
  | .tag tag :: rest => do shown (← step isOpen tag) rest

def render : Console := fun s => (shown [] (pieces (s.length + 1) s.toList)).map String.ofList

end Markup

end ChoreReminder
