import ChoreReminder.Text.Numeral

/-! Identifiers of 128 bits. They are written as 32 hexadecimal digits in groups of 8, 4, 4, 4 and 12.
The reader is lenient: it passes over hyphens, braces at the ends and the two words of the URN form,
and takes what remains as a hexadecimal numeral of 32 characters. -/

namespace ChoreReminder.Text

def uuidLength : Nat := 32

def without (word : List Char) (h : word ≠ []) : List Char → List Char
  | [] => []
  | c :: rest =>
    if word.isPrefixOf (c :: rest) then without word h ((c :: rest).drop word.length)
    else c :: without word h rest
termination_by cs => cs.length
decreasing_by
  · have : 0 < word.length := List.length_pos_iff.2 h
    simp only [List.length_drop, List.length_cons]
    omega
  · simp

def isBrace (c : Char) : Bool := c == '\x7b' || c == '\x7d'

def uuidDigits (cs : List Char) : List Char :=
  let cs := without "urn:".toList (by decide) cs
  let cs := without "uuid:".toList (by decide) cs
  (trimBy isBrace cs).filter (· != '-')

def readUuid? (cs : List Char) : Option Nat :=
  let ds := uuidDigits cs
  if ds.length = uuidLength then
    match readHex? ds with
    | some (.ofNat n) => some n
    | _ => none
  else none

def uuidText (n : Nat) : String :=
  let ds := fixedDigits 16 uuidLength n
  String.ofList (ds.take 8 ++ '-' :: (ds.drop 8).take 4 ++ '-' :: (ds.drop 12).take 4
    ++ '-' :: (ds.drop 16).take 4 ++ '-' :: ds.drop 20)

end ChoreReminder.Text
