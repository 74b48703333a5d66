import ChoreReminder.Datum.Field
import ChoreReminder.Yaml.Scalar

/-! What a text of a YAML document denotes. A plain text denotes what its form says: yes and no are truth
values, integers may be written to other bases and in sixties, a date is a date. A tag overrides
the form. -/

namespace ChoreReminder.Yaml

inductive Kind where
  | str
  | null
  | bool
  | int
  | float
  | timestamp
  /-- The key whose value is taken in among the other keys. -/
  | merge
  /-- The key whose value stands for the whole. -/
  | value
  | binary
  | sequence
  | mapping
  | set
  /-- A sequence of single pairs. -/
  | pairs
  | unknown
  deriving DecidableEq, Repr

def Kind.ofTag (tag : String) : Kind :=
  (([("str", Kind.str), ("null", .null), ("bool", .bool), ("int", .int), ("float", .float),
    ("timestamp", .timestamp), ("merge", .merge), ("value", .value), ("binary", .binary),
    ("seq", .sequence), ("map", .mapping), ("set", .set), ("omap", .pairs), ("pairs", .pairs)].map
      fun p => ("tag:yaml.org,2002:" ++ p.1, p.2)).lookup tag).getD .unknown

def isDigit (c : Char) : Bool := (Text.asciiDigit? c).isSome

def isDigitOrLine (c : Char) : Bool := isDigit c || c == '_'

/-! ### Integers -/

def isSpread : List Char → Bool
  | c :: rest => isDigit c && rest.all isDigitOrLine
  | [] => false

def isBelowSixty : List Char → Bool
  | [c] => isDigit c
  | [c, d] => isDigit c && c ≤ '5' && isDigit d
  | _ => false

def isRun (p : Char → Bool) (cs : List Char) : Bool := !cs.isEmpty && cs.all fun c => p c || c == '_'

def isInteger (cs : List Char) : Bool :=
  let body := (Text.splitSign cs).2
  match body with
  | ['0'] => true
  | '0' :: rest =>
    isRun (fun c => '0' ≤ c && c ≤ '7') rest
      || (rest.head? == some 'b' && isRun (fun c => c == '0' || c == '1') (rest.drop 1))
      || (rest.head? == some 'x' && isRun (fun c => (Text.asciiHex? c).isSome) (rest.drop 1))
  | _ =>
    match Text.splitBy (· == ':') body with
    | whole :: sixties => isSpread whole && sixties.all isBelowSixty
    | [] => false

def readDigits (base : Nat) (cs : List Char) : Except Fault Int :=
  let digit (c : Char) : Option Nat := (Text.hexDigit? c).filter (· < base)
  let read := if base = 10 then Text.readInt? cs
    else (Text.digitRun? digit true cs).map fun ds => (Text.ofDigits base ds : Int)
  match read with
  | some i => .ok i
  | none => .error (.numeral base (String.ofList cs))

/-- A number written in sixties, the highest part first. -/
def inSixties : Int → List (List Char) → Except Fault Int
  | total, [] => .ok total
  | total, part :: rest => do inSixties (total * 60 + (← readDigits 10 part)) rest

def readInteger (text : String) : Except Fault Int := do
  let cs := text.toList.filter (· ≠ '_')
  let (negative, body) := Text.splitSign cs
  let n ← match body with
    | [] => .error .emptyNumber
    | ['0'] => .ok 0
    | '0' :: 'b' :: rest => readDigits 2 rest
    | '0' :: 'x' :: rest => readDigits 16 rest
    | '0' :: _ => readDigits 8 body
    | _ => inSixties 0 (Text.splitBy (· == ':') body)
  return if negative then -n else n

/-! ### Numbers with a point -/

def isExponent : List Char → Bool
  | [] => true
  | e :: sign :: ds => (e == 'e' || e == 'E') && (sign == '-' || sign == '+') && !ds.isEmpty
      && ds.all isDigit
  | _ => false

def isOneOf (words : List String) (cs : List Char) : Bool := words.contains (String.ofList cs)

def isPointed (cs : List Char) : Bool :=
  let before := cs.takeWhile (· != '.')
  match cs.dropWhile (· != '.') with
  | [] => false
  | _ :: after =>
    match Text.splitBy (· == ':') before with
    | [whole] => isSpread whole && isExponent (after.dropWhile isDigitOrLine)
    | whole :: sixties => isSpread whole && sixties.all isBelowSixty && after.all isDigitOrLine
    | [] => false

def isDecimal (cs : List Char) : Bool :=
  let body := (Text.splitSign cs).2
  isPointed body || isOneOf [".inf", ".Inf", ".INF"] body || isOneOf [".nan", ".NaN", ".NAN"] cs
    || match cs with
      | '.' :: c :: rest => isDigit c && isExponent (rest.dropWhile isDigitOrLine)
      | _ => false

def readPart (cs : List Char) : Except Fault Binary64 :=
  match Datum.floatWord? (Text.trimBy Text.isSpace cs) with
  | some x => .ok x
  | none => .error (.decimal (String.ofList cs))

/-- A number written in sixties, summed up from its lowest part; `parts` begins with that one. -/
def sumOfSixties (total : Binary64) (unit : Nat) : List Binary64 → Binary64
  | [] => total
  | x :: rest => sumOfSixties (total.plus (x.times unit)) (unit * 60) rest

def readDecimal (text : String) : Except Fault Binary64 := do
  let cs := (text.toList.filter (· ≠ '_')).map Char.toLower
  let (negative, body) := Text.splitSign cs
  let x ← match body with
    | [] => .error .emptyNumber
    | ['.', 'i', 'n', 'f'] => .ok (.infinite false)
    | ['.', 'n', 'a', 'n'] => .ok .notANumber
    | _ =>
      match Text.splitBy (· == ':') body with
      | [part] => readPart part
      | parts => return sumOfSixties .zero 1 (← parts.mapM readPart).reverse
  return if negative then x.negate else x

/-! ### Times -/

/-- A time before its parts are checked: without a clock it is a date. -/
structure Moment where
  date : Date
  clock : Option Stamp.Clock
  offset : Option Int

def takeShort (cs : List Char) : Option (Nat × List Char) :=
  if (cs[1]?).any isDigit then Stamp.takeNumber 2 cs else Stamp.takeNumber 1 cs

def takeMark (c : Char) : List Char → Option (List Char)
  | d :: rest => if c = d then some rest else none
  | [] => none

def readOffset : List Char → Option (Option Int)
  | [] => some none
  | cs =>
    match cs.dropWhile isTabOrSpace with
    | ['Z'] => some (some 0)
    | sign :: rest =>
      if sign = '+' ∨ sign = '-' then do
        let (h, rest) ← takeShort rest
        let (m, rest) ← match rest with
          | ':' :: more => Stamp.takeNumber 2 more
          | _ => some (0, rest)
        if rest.isEmpty then
          some (some (Text.signed (sign = '-') (h * Calendar.hour + m * Calendar.minute)))
        else none
      else none
    | [] => none

def takeMicros : List Char → Nat × List Char
  | '.' :: rest =>
    let ds := (rest.takeWhile isDigit).take 6
    (Text.ofDigits 10 (ds.filterMap Text.asciiDigit?) * tenPow (6 - ds.length), rest.dropWhile isDigit)
  | cs => (0, cs)

def moment? (cs : List Char) : Option Moment := do
  let (year, rest) ← Stamp.takeNumber 4 cs
  let (month, rest) ← takeShort (← takeMark '-' rest)
  let (day, rest) ← takeShort (← takeMark '-' rest)
  let date : Date := ⟨year, month, day⟩
  let rest ← match rest with
    | [] => return ⟨date, none, none⟩
    | c :: more =>
      if c = 'T' ∨ c = 't' then some more
      else if isTabOrSpace c then some (more.dropWhile isTabOrSpace) else none
  let (hour, rest) ← takeShort rest
  let (minute, rest) ← Stamp.takeNumber 2 (← takeMark ':' rest)
  let (second, rest) ← Stamp.takeNumber 2 (← takeMark ':' rest)
  let (micros, rest) := takeMicros rest
  return ⟨date, some { hour, minute, second, micros }, ← readOffset rest⟩

def isMoment (cs : List Char) : Bool :=
  match moment? cs with
  | some m => m.clock.isSome || cs.length == 10
  | none => false

/-- The time that a text denotes; the offset is checked first. -/
def readMoment (text : String) : Except Fault ForeignKind :=
  match moment? text.toList with
  | none => .error .time
  | some ⟨date, clock, offset⟩ =>
    let kind := if clock.isSome then ForeignKind.datetime else .date
    match offset.filter (Calendar.day ≤ ·.natAbs), Stamp.wallOf date (clock.getD {}) with
    | some o, _ => .error (.stamp (.offset o))
    | none, .error f => .error (.stamp f)
    | none, .ok _ => .ok kind

/-! ### Any text -/

def Kind.ofForm (text : String) : Kind :=
  let cs := text.toList
  let truths := ["yes", "Yes", "YES", "no", "No", "NO", "true", "True", "TRUE", "false", "False",
    "FALSE", "on", "On", "ON", "off", "Off", "OFF"]
  if truths.contains text then .bool
  else if ["", "~", "null", "Null", "NULL"].contains text then .null
  else if text = "<<" then .merge
  else if text = "=" then .value
  else if isInteger cs then .int
  else if isDecimal cs then .float
  else if isMoment cs then .timestamp
  else .str

def readTruth (text : String) : Except Fault Bool :=
  let word := String.ofList (text.toList.map Char.toLower)
  if ["yes", "true", "on"].contains word then .ok true
  else if ["no", "false", "off"].contains word then .ok false
  else .error .truthValue

/-- Text that stands for bytes: four characters of the alphabet for three bytes, the last four filled
up with equals signs. Other characters do not count; `place` is the position among the four. -/
def isBytes : (place pads : Nat) → List Char → Bool
  | place, _, [] => place == 0
  | place, pads, c :: rest =>
    if c = '=' then place ≥ 2 && place + pads + 1 ≥ 4 || isBytes place (pads + (if place ≥ 2 then 1 else 0)) rest
    else if c.isAlphanum || c = '+' || c = '/' then isBytes ((place + 1) % 4) 0 rest
    else isBytes place pads rest

def readText (kind : Kind) (text : String) : Except Fault Datum :=
  match kind with
  | .str => .ok (.str text)
  | .null => .ok .null
  | .bool => (readTruth text).map .bool
  | .int => (readInteger text).map .int
  | .float => (readDecimal text).map .real
  | .timestamp => (readMoment text).map .foreign
  | .binary =>
    if text.toList.all (·.toNat < 128) && isBytes 0 0 text.toList then .ok (.foreign .bytes)
    else .error .malformed
  | _ => .error .malformed

end ChoreReminder.Yaml
