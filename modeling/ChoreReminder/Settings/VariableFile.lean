import ChoreReminder.Datum.Basic
import ChoreReminder.Text.Blank

/-! Files of variables: a name, an equals sign and a value on a line each. Names and values may stand in
quotes, and a value in quotes may go on over several lines. Inside a value, a name in braces after a
dollar sign stands for the value of that variable. A line that does not have this form is passed
over. -/

namespace ChoreReminder.VariableFile

def isInlineBlank (c : Char) : Bool := Text.isBlank c && c != '\n'

def skipBlanks (cs : List Char) : List Char := cs.dropWhile isInlineBlank

def nextLine (cs : List Char) : List Char := (cs.dropWhile (· != '\n')).drop 1

def skipExport (cs : List Char) : List Char :=
  if cs.take 6 == "export".toList && (cs[6]?).any isInlineBlank then skipBlanks (cs.drop 6) else cs

abbrev Part (α : Type) := Except (List Char) (α × List Char)

def singleQuote : Char := Char.ofNat 39

def doubleQuote : Char := Char.ofNat 34

def backslash : Char := Char.ofNat 92

def takeName (cs : List Char) : Part (Option String) :=
  match cs with
  | [] => .error cs
  | c :: rest =>
    if c = '#' then .ok (none, cs)
    else
      let quoted := c == singleQuote
      let body := if quoted then rest else cs
      let inName (d : Char) : Bool :=
        if quoted then d != singleQuote else d != '=' && d != '#' && !Text.isBlank d
      let name := body.takeWhile inName
      let after := body.dropWhile inName
      if name.isEmpty || (quoted && after.isEmpty) then .error cs
      else .ok (some (String.ofList name), if quoted then after.drop 1 else after)

/-- Position of the quote that ends a text: the first one without a backslash before it, or else the
last one of all. -/
def closingQuote? (quote : Char) (cs : List Char) : Option Nat :=
  let quotes := (List.range cs.length).filter fun n => cs[n]? == some quote
  let isFree (n : Nat) : Bool := n == 0 || cs[n - 1]? != some backslash
  (quotes.find? isFree).or quotes.getLast?

def escaped? (quote c : Char) : Option Char :=
  if c = backslash ∨ c = singleQuote then some c
  else if quote = singleQuote then none
  else ([(doubleQuote, 34), ('a', 7), ('b', 8), ('f', 12), ('n', 10), ('r', 13), ('t', 9),
    ('v', 11)].lookup c).map Char.ofNat

/-- Takes the escapes out of a text. A backslash before any other character stays. -/
def unescaped (quote : Char) : List Char → List Char
  | [] => []
  | [c] => [c]
  | c :: d :: rest =>
    match (if c = backslash then escaped? quote d else none) with
    | some e => e :: unescaped quote rest
    | none => c :: unescaped quote (d :: rest)

/-- A value without quotes: it ends before blanks that a comment follows. -/
def beforeComment : List Char → List Char
  | [] => []
  | c :: rest =>
    if Text.isBlank c && (rest.dropWhile Text.isBlank).head? == some '#' then []
    else c :: beforeComment rest

def takeValue (cs : List Char) : Part String :=
  match cs with
  | [] => .ok ("", [])
  | c :: rest =>
    if c = singleQuote ∨ c = doubleQuote then
      match closingQuote? c rest with
      | some n => .ok (String.ofList (unescaped c (rest.take n)), rest.drop (n + 1))
      | none => .error cs
    else
      let line := cs.takeWhile (· != '\n')
      let value := (beforeComment line).reverse.dropWhile Text.isBlank
      .ok (String.ofList value.reverse, cs.drop line.length)

def takeEnd (cs : List Char) : Part Unit :=
  match skipBlanks cs with
  | [] => .ok ((), [])
  | c :: rest =>
    if c = '\n' then .ok ((), rest)
    else if c = '#' then .ok ((), nextLine rest)
    else .error cs

def takeLine (cs : List Char) :
    Except (List Char) (Option (String × Option String) × List Char) := do
  let (name, rest) ← takeName (skipExport cs)
  let rest := skipBlanks rest
  let (value, rest) ← match rest with
    | '=' :: more => (takeValue (skipBlanks more)).map fun (v, rest) => (some v, rest)
    | _ => .ok (none, rest)
  let ((), rest) ← takeEnd rest
  return (name.map (·, value), rest)

/-- Reads all lines. Each one takes a character at least. -/
def lines : (fuel : Nat) → List Char → List (String × Option String)
  | 0, _ => []
  | fuel + 1, cs =>
    match cs.dropWhile Text.isBlank with
    | [] => []
    | cs =>
      match takeLine cs with
      | .ok (line, rest) => line.toList ++ lines fuel rest
      | .error rest => lines fuel (nextLine rest)

/-- Puts values in the place of names in braces. A variable that is not known has the value that follows
its name, if any, and is empty otherwise. -/
def filledIn (known : String → Option String) : (fuel : Nat) → List Char → List Char
  | fuel + 1, '$' :: '\x7b' :: rest =>
    let name := rest.takeWhile fun c => c != '\x7d' && c != ':'
    let value (absent : List Char) : List Char :=
      ((known (String.ofList name)).map String.toList).getD absent
    match rest.drop name.length with
    | '\x7d' :: more => value [] ++ filledIn known fuel more
    | ':' :: '-' :: more =>
      match more.dropWhile (· != '\x7d') with
      | _ :: after => value (more.takeWhile (· != '\x7d')) ++ filledIn known fuel after
      | [] => '$' :: '\x7b' :: filledIn known fuel rest
    | _ => '$' :: '\x7b' :: filledIn known fuel rest
  | fuel + 1, c :: rest => c :: filledIn known fuel rest
  | _, cs => cs

/-- The variables of a file; of two lines with one name the later counts. The values in braces come from
earlier lines, and only then from the variables that are given. -/
def read (given : List (String × String)) (cs : List Char) : List (String × Datum) :=
  (lines (cs.length + 1) cs).foldl (fun done (name, value) =>
    let known (n : String) : Option String :=
      match done.lookup n with
      | some d => some (if let .str s := d then s else "")
      | none => given.lookup n
    let value := value.map fun v => String.ofList (filledIn known v.length v.toList)
    Datum.setMember name (Datum.optionalText value) done) []

end ChoreReminder.VariableFile
