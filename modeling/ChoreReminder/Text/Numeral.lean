import ChoreReminder.Text.Blank
import ChoreReminder.Text.Digit

/-! Integer numerals as people write them: blanks around, an optional sign, digits of any script, and
single underscores between digits. The same digits rule serves base ten and base sixteen; the
latter also allows the customary `0x` in front. -/

namespace ChoreReminder.Text

def maxDigits : Nat := 4300

def hexDigit? (c : Char) : Option Nat :=
  if 'a' ≤ c ∧ c ≤ 'f' then some (c.toNat - 87)
  else if 'A' ≤ c ∧ c ≤ 'F' then some (c.toNat - 55)
  else digit? c

def asciiHex? (c : Char) : Option Nat := if c.toNat < 0x80 then hexDigit? c else none

/-- The digits of a numeral body: one digit at least, and a single underscore may stand between two.
`fresh` says that an underscore is not allowed here. -/
def digitRun? (digit : Char → Option Nat) (fresh : Bool) : List Char → Option (List Nat)
  | [] => if fresh then none else some []
  | c :: rest =>
    if c = '_' then (if fresh then none else digitRun? digit true rest)
    else do
      let d ← digit c
      let ds ← digitRun? digit false rest
      return d :: ds

def ofDigits (base : Nat) (ds : List Nat) : Nat := ds.foldl (fun n d => n * base + d) 0

def splitSign : List Char → Bool × List Char
  | '-' :: rest => (true, rest)
  | '+' :: rest => (false, rest)
  | rest => (false, rest)

def signed (negative : Bool) (n : Nat) : Int := if negative then -(n : Int) else n

def readInt? (cs : List Char) : Option Int := do
  let (negative, body) := splitSign (trimBy isSpace cs)
  let ds ← digitRun? digit? true body
  if ds.length ≤ maxDigits then some (signed negative (ofDigits 10 ds)) else none

/-- Takes `0x` off the front, together with one underscore after it. -/
def dropHexMark : List Char → List Char
  | '0' :: x :: rest =>
    if x = 'x' ∨ x = 'X' then
      match rest with
      | '_' :: more => more
      | _ => rest
    else '0' :: x :: rest
  | cs => cs

def readHex? (cs : List Char) : Option Int := do
  let (negative, body) := splitSign (trimBy isSpace cs)
  let ds ← digitRun? hexDigit? true (dropHexMark body)
  return signed negative (ofDigits 16 ds)

def readNat? (cs : List Char) : Option Nat :=
  if cs.isEmpty then none else (cs.mapM asciiDigit?).map (ofDigits 10)

def digitChar (d : Nat) : Char := Char.ofNat (if d < 10 then 48 + d else 87 + d)

def fixedDigits (base : Nat) : (width : Nat) → Nat → List Char
  | 0, _ => []
  | width + 1, n => fixedDigits base width (n / base) ++ [digitChar (n % base)]

def padded (width n : Nat) : String :=
  let ds := Nat.toDigits 10 n
  String.ofList (List.replicate (width - ds.length) '0' ++ ds)

end ChoreReminder.Text
