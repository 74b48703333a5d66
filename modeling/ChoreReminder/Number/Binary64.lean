import ChoreReminder.Number.Power
import ChoreReminder.Text.Numeral

/-! Numbers in the 64-bit binary interchange format, as exact integers: a finite number is
`±mantissa · 2 ^ exponent` with a mantissa below `2 ^ 53`. Reading a decimal rounds to the nearest such
number, ties to the even mantissa; writing gives the fewest digits that read back to the same
number. Both are done on natural numbers, so nothing here depends on machine arithmetic. -/

namespace ChoreReminder

inductive Binary64 where
  | finite (negative : Bool) (mantissa : Nat) (exponent : Int)
  | infinite (negative : Bool)
  | notANumber
  deriving DecidableEq, Repr, Inhabited

namespace Binary64

def minExponent : Int := -1074

def maxExponent : Int := 971

def zero : Binary64 := .finite false 0 minExponent

def pow2 (e : Int) : Nat := twoPow e.toNat

def pow10 (e : Int) : Nat := tenPow e.toNat

/-- Quotient of `num / den` by `2 ^ e`, rounded to nearest, ties to even. -/
def scaled (num den : Nat) (e : Int) : Nat :=
  let n := num * pow2 (-e)
  let d := den * pow2 e
  let q := n / d
  let r := n % d
  if 2 * r < d then q else if 2 * r > d then q + 1 else q + q % 2

def fullExponent (num den : Nat) : Int :=
  let e := (num.log2 : Int) - den.log2 - 52
  if num * pow2 (-e) < den * pow2 e * twoPow 52 then e - 1 else e

def ofRatio (negative : Bool) (num den : Nat) : Binary64 :=
  if num = 0 then .finite negative 0 minExponent
  else
    let e := max (fullExponent num den) minExponent
    let m := scaled num den e
    let (m, e) := if m = twoPow 53 then (twoPow 52, e + 1) else (m, e)
    if e > maxExponent then .infinite negative else .finite negative m e

/-- The number nearest to `digits · 10 ^ e`. Exponents far outside the range are settled first, so no
huge power is formed. -/
def ofDecimal (negative : Bool) (digits : Nat) (e : Int) : Binary64 :=
  let size : Int := (Nat.toDigits 10 digits).length
  if digits = 0 ∨ e + size < -400 then .finite negative 0 minExponent
  else if e + size > 400 then .infinite negative
  else ofRatio negative (digits * pow10 e) (pow10 (-e))

def ofInt (i : Int) : Binary64 := ofDecimal (i < 0) i.natAbs 0

def toInt? : Binary64 → Option Int
  | .finite negative m e =>
    if e ≥ 0 then some (Text.signed negative (m * pow2 e))
    else if m % pow2 (-e) = 0 then some (Text.signed negative (m / pow2 (-e))) else none
  | _ => none

def isZero : Binary64 → Bool
  | .finite _ m _ => m == 0
  | _ => false

def isNonPositive : Binary64 → Bool
  | .finite negative m _ => negative || m == 0
  | .infinite negative => negative
  | .notANumber => false

/-- A finite number in units of `2 ^ e`, for an exponent `e` at most its own. -/
def inUnits (negative : Bool) (mantissa : Nat) (exponent e : Int) : Int :=
  Text.signed negative (mantissa * pow2 (exponent - e))

/-- The order of the numbers; an undefined number is in no order with any. -/
def le : Binary64 → Binary64 → Bool
  | .notANumber, _ => false
  | _, .notANumber => false
  | .infinite negative, .infinite negative' => negative || !negative'
  | .infinite negative, .finite .. => negative
  | .finite .., .infinite negative => !negative
  | .finite n m e, .finite n' m' e' =>
    let low := min e e'
    inUnits n m e low ≤ inUnits n' m' e' low

def thousandfold : Binary64 → Int
  | .finite negative m e => Text.signed negative (scaled (m * 1000) 1 (-e))
  | _ => 0

def times (x : Binary64) (k : Nat) : Binary64 :=
  match x with
  | .finite negative m e => ofRatio negative (m * k * pow2 e) (pow2 (-e))
  | _ => x

def plus : Binary64 → Binary64 → Binary64
  | .finite n m e, .finite n' m' e' =>
    let low := min e e'
    let sum := inUnits n m e low + inUnits n' m' e' low
    ofRatio (sum < 0) (sum.natAbs * pow2 low) (pow2 (-low))
  | .finite .., y => y
  | x, .finite .. => x
  | .infinite n, .infinite n' => if n = n' then .infinite n else .notANumber
  | _, _ => .notANumber

def negate : Binary64 → Binary64
  | .finite negative m e => .finite (!negative) m e
  | .infinite negative => .infinite (!negative)
  | .notANumber => .notANumber

/-! ### Shortest decimal -/

/-- The exponent `d` with `10 ^ d ≤ num / den < 10 ^ (d + 1)`, for a positive ratio. -/
def decimalExponent (num den : Nat) : Int :=
  if num ≥ den then (Nat.toDigits 10 (num / den)).length - 1
  else
    let l := (Nat.toDigits 10 (den / num)).length
    if num * tenPow (l - 1) ≥ den then -((l : Int) - 1) else -l

/-- A positive number `mantissa · 2 ^ exponent` with the points halfway to its neighbours, all in units
of `2 ^ (exponent - 2)`. The ends belong to the interval if the mantissa is even. -/
structure Span where
  low : Nat
  mid : Nat
  high : Nat
  unit : Int
  closed : Bool

def Span.around (m : Nat) (e : Int) : Span where
  low := if m = twoPow 52 ∧ e > minExponent then 4 * m - 1 else 4 * m - 2
  mid := 4 * m
  high := 4 * m + 2
  unit := e - 2
  closed := m % 2 = 0

/-- `c · 10 ^ k` as a multiple of the unit, both sides cleared of denominators: the pair compares like
`(c · 10 ^ k, p · 2 ^ unit)`. -/
def Span.sides (s : Span) (c : Nat) (k : Int) (p : Nat) : Nat × Nat :=
  (c * pow10 k * pow2 (-s.unit), p * pow2 s.unit * pow10 (-k))

def Span.holds (s : Span) (c : Nat) (k : Int) : Bool :=
  let (a, low) := s.sides c k s.low
  let (_, high) := s.sides c k s.high
  if s.closed then low ≤ a && a ≤ high else low < a && a < high

def Span.distance (s : Span) (c : Nat) (k : Int) : Nat :=
  let (a, mid) := s.sides c k s.mid
  (a - mid) + (mid - a)

/-- The decimal on the grid `10 ^ k` that reads back, the nearer one if both neighbours do. -/
def Span.onGrid? (s : Span) (k : Int) : Option Nat :=
  let (num, den) := (s.mid * pow2 s.unit * pow10 (-k), pow2 (-s.unit) * pow10 k)
  let f := num / den
  match s.holds f k, s.holds (f + 1) k with
  | true, true =>
    let (near, far) := (s.distance f k, s.distance (f + 1) k)
    some (if near < far ∨ (near = far ∧ f % 2 = 0) then f else f + 1)
  | true, false => some f
  | false, true => some (f + 1)
  | false, false => none

/-- The first of the grids with 1, 2, …, 17 digits on which some decimal reads back. -/
def Span.shortest (s : Span) (top : Int) : Nat × Int :=
  let grids := (List.range 17).map fun (n : Nat) => top - (n : Int)
  (grids.findSome? fun k => (s.onGrid? k).map (·, k)).getD (0, 0)

def shortestDigits (m : Nat) (e : Int) : List Char × Int :=
  let (c, k) := (Span.around m e).shortest (decimalExponent (m * pow2 e) (pow2 (-e)))
  let ds := Nat.toDigits 10 c
  ((ds.reverse.dropWhile (· == '0')).reverse, ds.length + k)

/-- How a number is written: positional from `10 ^ -4` up to `10 ^ 16`, with `.0` after a whole number;
otherwise with an exponent of two digits at least. -/
def positional (ds : List Char) (point : Int) : List Char :=
  if point ≤ 0 then '0' :: '.' :: List.replicate (-point).toNat '0' ++ ds
  else if ds.length ≤ point.toNat then
    ds ++ List.replicate (point.toNat - ds.length) '0' ++ ['.', '0']
  else ds.take point.toNat ++ '.' :: ds.drop point.toNat

def scientific (ds : List Char) (point : Int) : List Char :=
  let e := point - 1
  let mantissa := match ds with
    | [] => []
    | [d] => [d]
    | d :: rest => d :: '.' :: rest
  mantissa ++ 'e' :: (if e < 0 then '-' else '+') :: (Text.padded 2 e.natAbs).toList

def text : Binary64 → String
  | .notANumber => "nan"
  | .infinite negative => if negative then "-inf" else "inf"
  | .finite negative m e =>
    let body := if m = 0 then ['0', '.', '0'] else
      let (ds, point) := shortestDigits m e
      if -4 < point ∧ point ≤ 16 then positional ds point else scientific ds point
    String.ofList (if negative then '-' :: body else body)

end Binary64

end ChoreReminder
