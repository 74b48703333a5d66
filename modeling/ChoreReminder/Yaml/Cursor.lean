/-! Places in the text of a YAML document: what is still to be read, and where that stands. Columns decide
how blocks nest, so every character that is read moves the column, and a line break sets it back. -/

namespace ChoreReminder.Yaml

def byteOrderMark : Char := '\ufeff'

def isBreak (c : Char) : Bool :=
  c == '\n' || c == '\u0085' || c == '\u2028' || c == '\u2029'

/-- How a line break counts in a text: the two separators stand for themselves. -/
def breakText (c : Char) : Char := if c = '\u2028' ∨ c = '\u2029' then c else '\n'

def isTabOrSpace (c : Char) : Bool := c == ' ' || c == '\t'

def isGap : Option Char → Bool
  | none => true
  | some c => isTabOrSpace c || isBreak c

def isSpaceOrEnd : Option Char → Bool
  | none => true
  | some c => c == ' ' || isBreak c

def isLineEnd : Option Char → Bool
  | none => true
  | some c => isBreak c

def isSeparator (cs : List Char) : Bool :=
  (cs.take 3 == ['-', '-', '-'] || cs.take 3 == ['.', '.', '.']) && isGap cs[3]?

def isAllowed (c : Char) : Bool :=
  let n := c.toNat
  n == 9 || n == 10 || n == 13 || (0x20 ≤ n && n ≤ 0x7e) || n == 0x85 || (0xa0 ≤ n && n ≤ 0xd7ff)
    || (0xe000 ≤ n && n ≤ 0xfffd) || 0x10000 ≤ n

def isNameChar (c : Char) : Bool := c.isAlphanum || c == '-' || c == '_'

structure Cursor where
  rest : List Char
  index : Nat := 0
  line : Nat := 0
  column : Nat := 0

namespace Cursor

def next (c : Cursor) : Cursor :=
  match c.rest with
  | [] => c
  | ch :: rest =>
    if isBreak ch then { rest, index := c.index + 1, line := c.line + 1, column := 0 }
    else
      { c with
        rest
        index := c.index + 1
        column := if ch = byteOrderMark then c.column else c.column + 1 }

def skip : Nat → Cursor → Cursor
  | 0, c => c
  | n + 1, c => skip n c.next

def peek? (c : Cursor) (n : Nat) : Option Char := c.rest[n]?

def takeWhile (p : Char → Bool) (c : Cursor) : List Char × Cursor :=
  let run := c.rest.takeWhile p
  (run, c.skip run.length)

def skipWhile (p : Char → Bool) (c : Cursor) : Cursor := (c.takeWhile p).2

def takeBreak? (c : Cursor) : Option (Char × Cursor) :=
  match c.rest with
  | ch :: _ => if isBreak ch then some (breakText ch, c.next) else none
  | [] => none

def skipLine (c : Cursor) : Cursor := c.skipWhile (!isBreak ·)

def skipEmptyLine? (c : Cursor) : Option Cursor :=
  let c := c.skipWhile (· == ' ')
  let c := if c.peek? 0 = some '#' then c.skipLine else c
  if isLineEnd (c.peek? 0) then some c.next else none

def gapLength : (inComment : Bool) → List Char → Nat × Bool
  | _, [] => (0, false)
  | inComment, ch :: rest =>
    if isBreak ch then ((gapLength false rest).1 + 1, true)
    else if inComment || ch == ' ' || ch == '#' then
      let (n, broken) := gapLength (inComment || ch == '#') rest
      (n + 1, broken)
    else (0, false)

def skipGap (c : Cursor) : Bool × Cursor :=
  let c := if c.index = 0 ∧ c.peek? 0 = some byteOrderMark then c.next else c
  let (n, broken) := gapLength false c.rest
  (broken, c.skip n)

end Cursor

end ChoreReminder.Yaml
