import ChoreReminder.Datum.Basic
import ChoreReminder.Number.Power

/-! Reading typed fields out of documents. A value of a neighbouring kind is accepted where it can mean
only one thing: a whole number as text, one and zero for the truth values. Where it cannot, the
complaint names the place and what is wrong there, and all complaints of a document are collected. -/

namespace ChoreReminder

inductive Misfit where
  | intType
  | intParsing
  | intParsingSize
  | intFromFloat
  | finiteNumber
  | stringType
  /-- A text that has no UTF-8 form. -/
  | stringUnicode
  | boolType
  | boolParsing
  | floatType
  | floatParsing
  | listType
  | modelType
  | modelAttributesType
  | literal
  | atLeast
  | above
  | missing
  | tagNotFound
  | tagInvalid
  | datetimeType
  deriving DecidableEq, Repr

def Misfit.code : Misfit → String
  | intType => "int_type"
  | intParsing => "int_parsing"
  | intParsingSize => "int_parsing_size"
  | intFromFloat => "int_from_float"
  | finiteNumber => "finite_number"
  | stringType => "string_type"
  | stringUnicode => "string_unicode"
  | boolType => "bool_type"
  | boolParsing => "bool_parsing"
  | floatType => "float_type"
  | floatParsing => "float_parsing"
  | listType => "list_type"
  | modelType => "model_type"
  | modelAttributesType => "model_attributes_type"
  | literal => "literal_error"
  | atLeast => "greater_than_equal"
  | above => "greater_than"
  | missing => "missing"
  | tagNotFound => "union_tag_not_found"
  | tagInvalid => "union_tag_invalid"
  | datetimeType => "datetime_type"

structure Complaint where
  path : List String
  misfit : Misfit
  deriving DecidableEq, Repr

namespace Complaint

def place (c : Complaint) : String := ".".intercalate c.path

def le (a b : Complaint) : Bool :=
  if a.place = b.place then a.misfit.code ≤ b.misfit.code else a.place ≤ b.place

def sorted (cs : List Complaint) : List Complaint := cs.mergeSort le

end Complaint

/-- A value read from a document, or all that is wrong with the document. -/
abbrev Reading (α : Type) := Except (List Complaint) α

namespace Reading

variable {α β γ : Type}

def fail (m : Misfit) : Reading α := .error [⟨[], m⟩]

/-- Applies a function that was read to a value that was read; the complaints of both are kept. -/
def ap (f : Reading (α → β)) (x : Reading α) : Reading β :=
  match f, x with
  | .ok f, .ok a => .ok (f a)
  | .ok _, .error cs => .error cs
  | .error cs, .ok _ => .error cs
  | .error cs, .error ds => .error (cs ++ ds)

def under (name : String) : Reading α → Reading α
  | .ok a => .ok a
  | .error cs => .error (cs.map fun c => { c with path := name :: c.path })

def check (p : α → Bool) (m : Misfit) (r : Reading α) : Reading α :=
  match r with
  | .ok a => if p a then .ok a else fail m
  | .error cs => .error cs

def items (read : Datum → Reading α) : Nat → List Datum → Reading (List α)
  | _, [] => .ok []
  | n, d :: rest =>
    ap ((under (toString n) (read d)).map List.cons) (items read (n + 1) rest)

end Reading

namespace Datum

/-- A numeral of a document: blanks around, an optional sign, digits with single underscores, and a
fraction if it is all zeros. -/
def numeral? (s : String) : Option (List Nat × Bool) := do
  let (negative, body) := Text.splitSign (Text.trimBy Text.isSpace s.toList)
  let whole := body.takeWhile (· != '.')
  let ds ← Text.digitRun? Text.asciiDigit? true whole
  match body.dropWhile (· != '.') with
  | [] => some (ds, negative)
  | _ :: frac => if frac.all (· == '0') then some (ds, negative) else none

def toInt : Datum → Reading Int
  | .int i => .ok i
  | .bool b => .ok (if b then 1 else 0)
  | .real x =>
    match x with
    | .finite .. =>
      match x.toInt? with
      | none => .fail .intFromFloat
      | some i => if fitsWord 64 (i - 1) && fitsWord 64 i then .ok i else .fail .intParsingSize
    | _ => .fail .finiteNumber
  | .str s =>
    match numeral? s with
    | none => .fail .intParsing
    | some (ds, negative) =>
      if ds.length ≤ Text.maxDigits then .ok (Text.signed negative (Text.ofDigits 10 ds))
      else .fail .intParsingSize
  | .halved _ => .fail .stringUnicode
  | _ => .fail .intType

def toOptionalInt : Datum → Reading (Option Int)
  | .null => .ok none
  | d => d.toInt.map some

def toStr : Datum → Reading String
  | .str s => .ok s
  | .halved _ => .fail .stringUnicode
  | _ => .fail .stringType

def truthWord? (s : String) : Option Bool :=
  let s := String.ofList (s.toList.map Char.toLower)
  if ["true", "t", "yes", "y", "on", "1"].contains s then some true
  else if ["false", "f", "no", "n", "off", "0"].contains s then some false
  else none

def truthOfInt : Int → Reading Bool
  | 0 => .ok false
  | 1 => .ok true
  | i => .fail (if fitsWord 64 i then .boolParsing else .boolType)

def toBool : Datum → Reading Bool
  | .bool b => .ok b
  | .int i => truthOfInt i
  | .real x => (x.toInt?.map truthOfInt).getD (.fail .boolType)
  | .str s =>
    match truthWord? s with
    | some b => .ok b
    | none => .fail .boolParsing
  | .halved _ => .fail .stringUnicode
  | _ => .fail .boolType

/-- Digits with an optional point and an optional exponent; a digit stands on one side of the point at
least. -/
def decimal? (negative : Bool) (cs : List Char) : Option Binary64 := do
  let isDigit (c : Char) : Bool := (Text.asciiDigit? c).isSome
  let (whole, rest) := cs.span isDigit
  let (frac, rest) := match rest with
    | '.' :: more => more.span isDigit
    | _ => ([], rest)
  if whole.isEmpty && frac.isEmpty then none
  else
    let exp ← match rest with
      | [] => some 0
      | e :: more =>
        if e = 'e' ∨ e = 'E' then
          let (sign, ds) := Text.splitSign more
          (Text.readNat? ds).map (Text.signed sign ·)
        else none
    let value := Text.ofDigits 10 ((whole ++ frac).filterMap Text.asciiDigit?)
    return .ofDecimal negative value (exp - frac.length)

def floatWord? (cs : List Char) : Option Binary64 :=
  let (negative, body) := Text.splitSign cs
  let word := String.ofList (body.map Char.toLower)
  if word = "inf" ∨ word = "infinity" then some (.infinite negative)
  else if word = "nan" then some .notANumber
  else decimal? negative body

def withoutUnderscores (cs : List Char) : Option (List Char) :=
  let parts := Text.splitBy (· == '_') cs
  if parts.length > 1 && parts.all (!·.isEmpty) then some parts.flatten else none

def toFloat : Datum → Reading Binary64
  | .real x => .ok x
  | .int i =>
    match Binary64.ofInt i with
    | .infinite _ => .fail .floatType
    | x => .ok x
  | .bool b => .ok (.ofInt (if b then 1 else 0))
  | .str s =>
    match floatWord? (Text.trimBy Text.isSpace s.toList) with
    | some x => .ok x
    | none =>
      match (withoutUnderscores s.toList).bind floatWord? with
      | some x => .ok x
      | none => .fail .floatParsing
  | .halved _ => .fail .stringUnicode
  | _ => .fail .floatType

def toStrings : Datum → Reading (List String)
  | .list ds => Reading.items toStr 0 ds
  | _ => .fail .listType

def optionalField {α : Type} (d : Datum) (name : String) (read : Datum → Reading α) (absent : α) :
    Reading α :=
  match d.get? name with
  | some v => Reading.under name (read v)
  | none => .ok absent

def requiredField {α : Type} (d : Datum) (name : String) (read : Datum → Reading α) : Reading α :=
  match d.get? name with
  | some v => Reading.under name (read v)
  | none => Reading.under name (.fail .missing)

end Datum

end ChoreReminder
