import ChoreReminder.Text.Quoted

/-! Texts as they come from outside. Half of a surrogate pair may stand alone in such a text, which then has no
UTF-8 form: it can be looked through and shown in quotes, but it can neither be stored nor be sent. -/

namespace ChoreReminder

/-- Half of a surrogate pair, by its number among the 2048 of them. -/
structure Half where
  number : Fin 2048
  deriving DecidableEq, Repr

namespace Half

def firstCode : Nat := 0xd800

def code (h : Half) : Nat := firstCode + h.number

def ofCode? (n : Nat) : Option Half :=
  if h : firstCode ≤ n ∧ n < firstCode + 2048 then some ⟨⟨n - firstCode, by omega⟩⟩ else none

/-- The character of a pair; `none` if this is no first half or the other no second one. -/
def join? (high low : Half) : Option Char :=
  if high.number < 1024 ∧ 1024 ≤ low.number.val then
    some (Char.ofNat (0x10000 + high.number * 1024 + (low.number - 1024)))
  else none

def escape (h : Half) : List Char := Text.escapeCode h.code

end Half

/-- What a text from outside is made of. -/
abbrev TextUnit := Char ⊕ Half

/-- A text that holds a half, taken apart at the first one. -/
structure HalvedText where
  front : String
  half : Half
  rest : List TextUnit
  deriving DecidableEq, Repr

namespace HalvedText

def units (t : HalvedText) : List TextUnit := t.front.toList.map .inl ++ .inr t.half :: t.rest

def quoted (t : HalvedText) : String :=
  let q := Text.quoteFor (t.units.filterMap Sum.getLeft?)
  let shown (u : TextUnit) : List Char := u.elim (Text.quoteChar q) Half.escape
  String.ofList (q :: t.units.flatMap shown ++ [q])

end HalvedText

/-- Where a text has no UTF-8 form: its first half, and the places of the halves that stand there in a row. -/
structure EncodingFault where
  half : Half
  first : Nat
  last : Nat
  deriving DecidableEq, Repr

def EncodingFault.message (f : EncodingFault) : String :=
  let what :=
    if f.last = f.first then
      "character '" ++ String.ofList f.half.escape ++ "' in position " ++ toString f.first
    else "characters in position " ++ toString f.first ++ "-" ++ toString f.last
  "'utf-8' codec can't encode " ++ what ++ ": surrogates not allowed"

def HalvedText.fault (t : HalvedText) : EncodingFault where
  half := t.half
  first := t.front.length
  last := t.front.length + (t.rest.takeWhile Sum.isRight).length

inductive LooseText where
  | whole (s : String)
  | halved (t : HalvedText)
  deriving DecidableEq, Repr

namespace LooseText

instance : Coe String LooseText := ⟨whole⟩

def ofUnits (us : List TextUnit) : LooseText :=
  let front := String.ofList ((us.takeWhile Sum.isLeft).filterMap Sum.getLeft?)
  match us.dropWhile Sum.isLeft with
  | .inr half :: rest => halved ⟨front, half, rest⟩
  | _ => whole front

def units : LooseText → List TextUnit
  | whole s => s.toList.map .inl
  | halved t => t.units

def append : LooseText → LooseText → LooseText
  | whole s, whole t => whole (s ++ t)
  | whole s, halved t => halved { t with front := s ++ t.front }
  | halved s, t => halved { s with rest := s.rest ++ t.units }

instance : Append LooseText := ⟨append⟩

def isWhole : LooseText → Bool
  | whole _ => true
  | halved _ => false

def whole? : LooseText → Option String
  | whole s => some s
  | halved _ => none

def stored : LooseText → Except EncodingFault String
  | whole s => .ok s
  | halved t => .error t.fault

/-- The text as a terminal shows it, with its halves written out. -/
def escaped (t : LooseText) : String := String.ofList (t.units.flatMap (·.elim ([·]) Half.escape))

/-- The text up to its first line break, if there is no half in front of that. -/
def firstLine (t : LooseText) : LooseText := ofUnits (t.units.takeWhile (· != .inl '\n'))

end LooseText

end ChoreReminder
