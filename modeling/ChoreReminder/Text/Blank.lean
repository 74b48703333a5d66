/-! Three sets of blank characters. Any Unicode white space may stand around a number; where a text is
trimmed, the four ASCII separators count as blanks too; the fields of a cron expression are set apart
by ASCII blanks only. -/

namespace ChoreReminder.Text

def isSpace (c : Char) : Bool :=
  let n := c.toNat
  (9 ≤ n && n ≤ 13) || n == 0x20 || n == 0x85 || n == 0xa0 || n == 0x1680
    || (0x2000 ≤ n && n ≤ 0x200a) || n == 0x2028 || n == 0x2029 || n == 0x202f || n == 0x205f
    || n == 0x3000

/-- A Unicode white space character or one of the ASCII separators (file, group, record, unit). -/
def isBlank (c : Char) : Bool := isSpace c || (0x1c ≤ c.toNat && c.toNat ≤ 0x1f)

def isAsciiBlank (c : Char) : Bool := (9 ≤ c.toNat && c.toNat ≤ 13) || c.toNat == 0x20

def trimBy (p : Char → Bool) (cs : List Char) : List Char :=
  ((cs.dropWhile p).reverse.dropWhile p).reverse

def wordsBy (p : Char → Bool) : List Char → List (List Char)
  | [] => []
  | c :: rest =>
    if p c then wordsBy p rest
    else match rest, wordsBy p rest with
      | d :: _, w :: ws => if p d then [c] :: w :: ws else (c :: w) :: ws
      | _, ws => [c] :: ws

/-- The pieces between separators, with an empty piece between two neighbours. -/
def splitBy (p : Char → Bool) : List Char → List (List Char)
  | [] => [[]]
  | c :: rest =>
    if p c then [] :: splitBy p rest
    else match splitBy p rest with
      | [] => [[c]]
      | w :: ws => (c :: w) :: ws

def firstLine (s : String) : String := String.ofList (s.toList.takeWhile (· != '\n'))

end ChoreReminder.Text
