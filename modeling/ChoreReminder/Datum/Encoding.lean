import ChoreReminder.Datum.Json

/-! Bytes of a JSON document. The encoding is told by a byte order mark, else by where the first
bytes are zero; without a sign of either it is UTF-8. Bytes are natural numbers below 256. Half
of a surrogate pair on its own is let through. -/

namespace ChoreReminder.Datum.Encoding

def scalar? (n : Nat) : Option TextUnit :=
  match Half.ofCode? n with
  | some h => some (.inr h)
  | none => if n < 0x110000 then some (.inl (Char.ofNat n)) else none

def isTail (b : Nat) : Bool := 0x80 ≤ b && b < 0xc0

/-- UTF-8 without overlong forms. -/
def utf8? : List Nat → Option (List TextUnit)
  | [] => some []
  | a :: rest =>
    if a < 0x80 then (utf8? rest).map (.inl (Char.ofNat a) :: ·)
    else match rest with
      | [] => none
      | b :: rest =>
        if !isTail b then none
        else if a < 0xe0 then
          if a < 0xc2 then none
          else (utf8? rest).map (.inl (Char.ofNat ((a - 0xc0) * 0x40 + (b - 0x80))) :: ·)
        else match rest with
          | [] => none
          | c :: rest =>
            let n := (a - 0xe0) * 0x1000 + (b - 0x80) * 0x40 + (c - 0x80)
            if !isTail c then none
            else if a < 0xf0 then
              if n < 0x800 then none else do
                let ch ← scalar? n
                let more ← utf8? rest
                return ch :: more
            else match rest with
              | [] => none
              | d :: rest =>
                let n := (a - 0xf0) * 0x40000 + (b - 0x80) * 0x1000 + (c - 0x80) * 0x40 + (d - 0x80)
                if !isTail d || a > 0xf4 || n < 0x10000 then none else do
                  let ch ← scalar? n
                  let more ← utf8? rest
                  return ch :: more

inductive ByteOrder where
  | big
  | little

def ByteOrder.pair : ByteOrder → Nat → Nat → Nat
  | .big, a, b => a * 0x100 + b
  | .little, a, b => b * 0x100 + a

def units? (order : ByteOrder) : List Nat → Option (List Nat)
  | [] => some []
  | a :: b :: rest => (units? order rest).map (order.pair a b :: ·)
  | [_] => none

def joinUnits : List Nat → List TextUnit
  | [] => []
  | [u] => (scalar? u).toList
  | u :: v :: rest =>
    match (Half.ofCode? u).bind fun high => (Half.ofCode? v).bind high.join? with
    | some c => .inl c :: joinUnits rest
    | none => (scalar? u).toList ++ joinUnits (v :: rest)

def utf16? (order : ByteOrder) (bytes : List Nat) : Option (List TextUnit) :=
  (units? order bytes).map joinUnits

def utf32? (order : ByteOrder) : List Nat → Option (List TextUnit)
  | [] => some []
  | a :: b :: c :: d :: rest => do
    let n := match order with
      | .big => (order.pair a b) * 0x10000 + order.pair c d
      | .little => (order.pair c d) * 0x10000 + order.pair a b
    let ch ← scalar? n
    let more ← utf32? order rest
    return ch :: more
  | _ => none

def decode? : List Nat → Option (List TextUnit)
  | 0x00 :: 0x00 :: 0xfe :: 0xff :: rest => utf32? .big rest
  | 0xff :: 0xfe :: 0x00 :: 0x00 :: rest => utf32? .little rest
  | 0xfe :: 0xff :: rest => utf16? .big rest
  | 0xff :: 0xfe :: rest => utf16? .little rest
  | 0xef :: 0xbb :: 0xbf :: rest => utf8? rest
  | a :: b :: c :: d :: rest =>
    let bytes := a :: b :: c :: d :: rest
    if a = 0 then (if b = 0 then utf32? .big bytes else utf16? .big bytes)
    else if b = 0 then (if c = 0 ∧ d = 0 then utf32? .little bytes else utf16? .little bytes)
    else utf8? bytes
  | [a, b] =>
    if a = 0 then utf16? .big [a, b]
    else if b = 0 then utf16? .little [a, b]
    else utf8? [a, b]
  | bytes => utf8? bytes

end ChoreReminder.Datum.Encoding

namespace ChoreReminder.Datum.Json

def readBytes? (bytes : List Nat) : Option Datum := (Encoding.decode? bytes).bind readUnits?

def readSent? (s : String) : Option Datum := readBytes? (s.toUTF8.toList.map (·.toNat))

end ChoreReminder.Datum.Json
