import ChoreReminder.Cron.Basic

/-! Reading cron expressions. Fields are handled from left to right and the items of a field from its
last one to its first; the first problem met is the one reported. A range is replaced by its values,
which are then taken from the highest to the lowest like items of their own. -/

namespace ChoreReminder.Cron

def shorthand? (s : String) : Option String :=
  if s = "@midnight" ∨ s = "@daily" then some "0 0 * * *"
  else if s = "@hourly" then some "0 * * * *"
  else if s = "@weekly" then some "0 0 * * 0"
  else if s = "@monthly" then some "0 0 1 * *"
  else if s = "@yearly" ∨ s = "@annually" then some "0 0 1 1 *"
  else none

def fieldsOf (expression : String) : List (List Char) :=
  let s := Text.lowerText expression
  Text.wordsBy Text.isAsciiBlank ((shorthand? s).getD s).toList

def fieldsText (expression : String) : String :=
  " ".intercalate ((fieldsOf expression).map String.ofList)

def takeDigits? (cs : List Char) : Option (Nat × List Char) :=
  let (ds, rest) := cs.span fun c => (Text.asciiDigit? c).isSome
  (Text.readNat? ds).map (·, rest)

def nameValue? (slot : Slot) (cs : List Char) : Option Nat :=
  (slot.names.findIdx? (· == String.ofList cs)).map (· + slot.low)

/-! ### Draws -/

/-- A field that leaves the choice to chance: `h` or `r`, perhaps with bounds, perhaps with a step. -/
structure Draw where
  hashed : Bool
  bounds : Option (Nat × Nat)
  step : Option Nat

def drawBounds? : List Char → Option (Option (Nat × Nat) × List Char)
  | '(' :: rest => do
    match ← takeDigits? rest with
    | (low, '-' :: rest) =>
      match ← takeDigits? rest with
      | (high, ')' :: rest) => some (some (low, high), rest)
      | _ => none
    | _ => none
  | rest => some (none, rest)

def drawStep? : List Char → Option (Option Nat)
  | [] => some none
  | '/' :: rest => (Text.readNat? rest).map some
  | _ => none

def draw? : List Char → Option Draw
  | c :: rest =>
    if c = 'h' ∨ c = 'r' then do
      let (bounds, rest) ← drawBounds? rest
      let step ← drawStep? rest
      return ⟨c = 'h', bounds, step⟩
    else none
  | [] => none

def wrapWeekday (slot : Slot) (n : Nat) : Nat := if slot = .weekday ∧ n = 7 then 0 else n

/-- The value drawn. Chance decides among the values that a draw may give, and no other rule settles which one it is:
here the least one stands for them. With a step a draw gives the start of a series; the step is checked, and of the
series only the start is taken. -/
def Draw.resolve (d : Draw) (slot : Slot) (field : List Char) : Except Fault Nat :=
  let name := String.ofList field
  let outside (n : Nat) : Bool := wrapWeekday slot n < slot.low || slot.high < wrapWeekday slot n
  if d.hashed then .error .hashed
  else match d.bounds with
    | some (low, high) =>
      if high ≤ low then .error .emptyDraw
      else if outside low ∨ outside high then .error (.drawOutOfRange name)
      else if d.step = some 0 then .error (.drawStep name)
      else .ok low
    | none => if d.step = some 0 then .error (.drawStep name) else .ok slot.low

/-! ### Items -/

/-- What has been read of a field: its entries, the latest first; the range values already expanded;
and the two rules beside the slots. -/
structure Reading where
  taken : List Entry := []
  expanded : List (Nat × Option Nat) := []
  nth : List (Nat × List Nth) := []
  nearest : List Nat := []

def addNth (w : Nat) (n : Nth) : List (Nat × List Nth) → List (Nat × List Nth)
  | [] => [(w, [n])]
  | (v, ns) :: rest =>
    if v = w then (v, if ns.contains n then ns else (n :: ns).mergeSort Nth.le) :: rest
    else (v, ns) :: addNth w n rest

inductive Occurrence where
  | none
  | nth (n : Nat)
  | last

def isWordChar (c : Char) : Bool := c.isAlphanum || c == '_' || (c.toNat ≥ 0x80 && !Text.isBlank c)

def isNameOrNames (cs : List Char) : Bool :=
  [Slot.weekday, Slot.month].any fun slot =>
    match Text.splitBy (· == '-') cs with
    | [a] => (nameValue? slot a).isSome
    | [a, b] => (nameValue? slot a).isSome && (nameValue? slot b).isSome
    | _ => false

/-- Splits an item of the weekday slot at its occurrence: `x#n`, or `ln` for the last one. -/
def splitOccurrence (cs : List Char) : Except Fault (List Char × Occurrence) :=
  match cs.span (· != '#') with
  | (x, '#' :: suffix) =>
    match Text.readNat? suffix with
    | some n =>
      if (!x.isEmpty && x.all isWordChar) || isNameOrNames x then
        if 1 ≤ n ∧ n ≤ 5 then .ok (x, .nth n) else .error (.occurrence n)
      else .ok (cs, .none)
    | none => .ok (cs, .none)
  | _ =>
    match cs with
    | 'l' :: ds => if (Text.readNat? ds).isSome then .ok (ds, .last) else .ok (cs, .none)
    | _ => .ok (cs, .none)

/-- The day of an item of the day slot that stands for the nearest working day: `nw` or `wn`. -/
def nearestDay? (cs : List Char) : Option Nat :=
  match cs with
  | 'w' :: ds => Text.readNat? ds
  | _ =>
    match cs.reverse with
    | 'w' :: ds => Text.readNat? ds.reverse
    | _ => none

def bandParts? (cs : List Char) : Option (List Char × List Char × Nat) :=
  match cs.span (· != '-') with
  | (low, '-' :: rest) =>
    let (high, rest) := rest.span fun c => c != '-' && c != '/'
    if low.isEmpty || high.isEmpty then none
    else match rest with
      | [] => some (low, high, 1)
      | '/' :: ds => (Text.readNat? ds).map fun step => (low, high, step)
      | _ => none
  | _ => none

def splitStep? (cs : List Char) : Option (List Char × List Char) :=
  match cs.reverse with
  | [] => none
  | c :: rest =>
    let (tail, head) := rest.span (· != '/')
    match head with
    | '/' :: front => if front.isEmpty then none else some (front.reverse, (c :: tail).reverse)
    | _ => none

def openStar (slot : Slot) : List Char → List Char
  | '*' :: '/' :: c :: rest =>
    (toString slot.low ++ "-" ++ toString slot.high ++ "/").toList ++ c :: rest
  | cs => cs

/-- How an item is to be understood: a band, or one value. `fromStep` marks `a/n`, a band up to the
greatest value. -/
inductive Form where
  | band (low high : List Char) (step : Nat) (fromStep : Bool)
  | single (cs : List Char)

def formOf (slot : Slot) (e : List Char) : Form :=
  let t := openStar slot e
  match bandParts? t with
  | some (low, high, step) => .band low high step false
  | none =>
    match splitStep? e with
    | none => .single t
    | some (front, step) =>
      let t := front ++ ("-" ++ toString slot.high ++ "/").toList ++ step
      match bandParts? t with
      | some (low, high, step) => .band low high step true
      | none => .single t

def bound (slot : Slot) (cs : List Char) : Except Fault Nat :=
  match Text.readNat? cs with
  | some n => .ok n
  | none =>
    match nameValue? slot cs with
    | some n => .ok n
    | none => .error .unknownName

def steps (low high step : Nat) : List Nat :=
  if low ≤ high then (List.range ((high - low) / step + 1)).map fun k => low + k * step else []

def wrappedSteps (slot : Slot) (low high step : Nat) : List Nat :=
  let front := steps low slot.high step
  let last := front.getLastD low
  let skipped := slot.high - last
  let skip := if last + step > slot.low + slot.count ∧ skipped < step then step - skipped else 0
  front ++ steps (slot.low + skip) high step

def bandValues (slot : Slot) (low high step : Nat) (fromStep : Bool) : List Nat :=
  if low = high then
    if fromStep then [low] else steps slot.low slot.high step
  else if low > high then wrappedSteps slot low high step
  else steps low high step

def readBand (slot : Slot) (low high : List Char) (step : Nat) (fromStep : Bool) :
    Except Fault (List Nat) := do
  let isLast := slot = .day ∧ low = ['l']
  let a ← if isLast then .ok 0 else bound slot low
  let b ← if slot = .day ∧ high = ['l'] then .ok 31 else bound slot high
  if step = 0 then .error (.step slot)
  else if isLast then
    .error (.lastBand (String.ofList low)
      (if high = ['l'] then "31" else String.ofList high))
  else
    let a := wrapWeekday slot a
    let b := wrapWeekday slot b
    if max a b > slot.high then .error .band
    else .ok (bandValues slot a b step fromStep)

def takeSingle (slot : Slot) (r : Reading) (cs : List Char) (occ : Occurrence) :
    Except Fault Reading :=
  if cs.head? = some '-' then .error .negative
  else if cs = ['*'] then .ok { r with taken := .every :: r.taken }
  else if slot = .day ∧ cs = ['l'] then .ok { r with taken := .last :: r.taken }
  else do
    let n ← bound slot cs
    let n := wrapWeekday slot n
    if n < slot.low ∨ slot.high < n then .error .range
    else
      let nth := match occ with
        | .none => r.nth
        | .nth k => addNth n (.nth k) r.nth
        | .last => addNth n .last r.nth
      .ok { r with taken := .value n :: r.taken, nth }

/-- Takes a value of a band. A value that an earlier band of the field has given is passed over. -/
def takeBandValue (occ : Occurrence) (r : Reading) (n : Nat) : Reading :=
  let r := { r with taken := .value n :: r.taken }
  match occ with
  | .nth k => { r with nth := addNth n (.nth k) r.nth }
  | _ => r

def bandMark (occ : Occurrence) (n : Nat) : Nat × Option Nat :=
  match occ with
  | .nth k => (n, some k)
  | _ => (n, none)

/-- Takes the values of a band, the highest in the order of the band first. A band may begin below
the least value of its slot; such a value is out of range like any other item. -/
def takeBand (slot : Slot) (r : Reading) (occ : Occurrence) (values : List Nat) :
    Except Fault Reading :=
  let fresh := values.filter fun n => !r.expanded.contains (bandMark occ n)
  if fresh.any (· < slot.low) then .error .range
  else
    let r := fresh.reverse.foldl (takeBandValue occ) r
    .ok { r with expanded := fresh.map (bandMark occ) ++ r.expanded }

/-- Takes a day that gives way to the nearest working day; it must be the only item of its field. -/
def takeNearest (r : Reading) (alone : Bool) (n : Nat) : Except Fault Reading :=
  if n < 1 ∨ 31 < n then .error (.nearestRange n)
  else if !alone || !r.taken.isEmpty then .error .nearestMixed
  else .ok { r with taken := .value n :: r.taken, nearest := r.nearest ++ [n] }

def takeItem (slot : Slot) (r : Reading) (alone : Bool) (e : List Char) : Except Fault Reading := do
  let (e, occ) ← if slot = .weekday then splitOccurrence e else .ok (e, .none)
  match (if slot = .day then nearestDay? e else none) with
  | some n => takeNearest r alone n
  | none =>
    match formOf slot e with
    | .band low high step fromStep =>
      let values ← readBand slot low high step fromStep
      takeBand slot r occ values
    | .single t => takeSingle slot r t occ

def takeItems (slot : Slot) (r : Reading) : List (List Char) → Except Fault Reading
  | [] => .ok r
  | e :: rest => do
    let r ← takeItem slot r rest.isEmpty e
    takeItems slot r rest

def question (slot : Slot) (field : List Char) : Except Fault (List Char) :=
  if !field.contains '?' then .ok field
  else if field != ['?'] then .error .questionMixed
  else if slot = .day ∨ slot = .weekday then .ok ['*']
  else .error .questionSlot

def sortEntries (es : List Entry) : List Entry := es.eraseDups.mergeSort Entry.le

/-- All values of a slot together are every value. In a day slot that holds only if the other day slot
was written with a star, because two restricted day slots count as alternatives. -/
def collapse (slot : Slot) (otherDay : List Char) (es : List Entry) : List Entry :=
  let free := (slot = .day ∨ slot = .weekday) ∧ !otherDay.contains '*'
  if es.length = slot.count ∧ !free then [.every] else es

def readField (slot : Slot) (otherDay field : List Char) (r : Reading) :
    Except Fault (List Entry × Reading) := do
  match draw? field with
  | some d =>
    let n ← d.resolve slot field
    .ok ([.value n], { nth := r.nth, nearest := r.nearest })
  | none =>
    let field ← question slot field
    let items := Text.splitBy (· == ',') field
    let r ← takeItems slot { nth := r.nth, nearest := r.nearest } items.reverse
    .ok (collapse slot otherDay (sortEntries r.taken), r)

def readFields (raw : List (List Char)) (r : Reading) :
    List (Slot × List Char) → Except Fault (List (List Entry) × Reading)
  | [] => .ok ([], r)
  | (slot, field) :: rest => do
    let otherDay := (raw[if slot = .day then 4 else 2]?).getD []
    let (es, r) ← readField slot otherDay field r
    let (more, r) ← readFields raw r rest
    .ok (es :: more, r)

def plainWeekdays (weekday : List Entry) (nth : List (Nat × List Nth)) : List Nat :=
  weekday.filterMap fun
    | .value n => if (nth.lookup n).isSome then none else some n
    | _ => none

/-- Plain weekdays may stand beside restricted ones only if all seven are given. -/
def checkWeekdays (e : Expression) : Except Fault Expression :=
  let plain := plainWeekdays e.weekday e.nth
  if !e.nth.isEmpty && !plain.isEmpty && e.weekday.length != 7 then
    .error (.mixedWeekdays plain e.nth)
  else .ok e

def read (expression : String) : Except Fault Expression := do
  let raw := fieldsOf expression
  if raw.length < 5 ∨ 7 < raw.length then .error .columns
  else
    let (fields, r) ← readFields raw {} (Slot.all.zip raw)
    match fields with
    | minute :: hour :: day :: month :: weekday :: rest =>
      checkWeekdays { minute, hour, day, month, weekday, second := rest[0]?, year := rest[1]?
                      nth := r.nth, nearest := r.nearest }
    | _ => .error .columns

end ChoreReminder.Cron
