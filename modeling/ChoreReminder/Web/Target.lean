import ChoreReminder.Text.Numeral

/-! The target of a web request: a path and the pairs of its query. Both are written in an escaped form,
where a percent sign and two digits stand for a byte; in the query a plus sign is a blank. -/

namespace ChoreReminder

structure Target where
  path : String
  query : List (String × String)
  deriving DecidableEq, Repr

namespace Target

/-- The character of an escaped byte; beyond ASCII the replacement character stands for it. -/
def charOfByte (n : Nat) : Char := if n < 0x80 then Char.ofNat n else '\ufffd'

def unescaped : List Char → List Char
  | '%' :: a :: b :: rest =>
    match Text.asciiHex? a, Text.asciiHex? b with
    | some m, some n => charOfByte (16 * m + n) :: unescaped rest
    | _, _ => '%' :: unescaped (a :: b :: rest)
  | c :: rest => c :: unescaped rest
  | [] => []
termination_by cs => cs.length

def unescapedPart (cs : List Char) : String :=
  String.ofList (unescaped (cs.map fun c => if c = '+' then ' ' else c))

/-- The pair that one item of a query gives; without an equals sign the value is empty. -/
def pairOf (cs : List Char) : String × String :=
  (unescapedPart (cs.takeWhile (· != '=')), unescapedPart ((cs.dropWhile (· != '=')).drop 1))

def ofText (s : String) : Target :=
  let cs := s.toList.takeWhile (· != '#')
  let path := unescaped (cs.takeWhile (· != '?'))
  let items := Text.splitBy (· == '&') ((cs.dropWhile (· != '?')).drop 1)
  { path := String.ofList (if path.head? = some '/' then path else '/' :: path)
    query := (items.filter (!·.isEmpty)).map pairOf }

def last? (t : Target) (name : String) : Option String :=
  (t.query.reverse.find? (·.1 = name)).map (·.2)

end Target

end ChoreReminder
