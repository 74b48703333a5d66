import ChoreReminder.Text.Printable
import ChoreReminder.Text.Numeral

/-! The quoted form of a text and of a list of texts, as warnings show them: apostrophes around,
unless the text holds an apostrophe and no double quote; backslash escapes for the quote, the
backslash, the three line characters and every unprintable character. -/

namespace ChoreReminder.Text

def apostrophe : Char := Char.ofNat 39

def doubleQuote : Char := Char.ofNat 34

def backslash : Char := Char.ofNat 92

/-- Escape by code point, in the shortest of the three widths that holds it. -/
def escapeCode (n : Nat) : List Char :=
  if n < 0x100 then backslash :: 'x' :: fixedDigits 16 2 n
  else if n < 0x10000 then backslash :: 'u' :: fixedDigits 16 4 n
  else backslash :: 'U' :: fixedDigits 16 8 n

def quoteChar (quote c : Char) : List Char :=
  if c = quote ∨ c = backslash then [backslash, c]
  else if c = '\n' then [backslash, 'n']
  else if c = '\r' then [backslash, 'r']
  else if c = '\t' then [backslash, 't']
  else if isPrintable c then [c]
  else escapeCode c.toNat

def quoteFor (cs : List Char) : Char :=
  if cs.contains apostrophe && !cs.contains doubleQuote then doubleQuote else apostrophe

def quoted (s : String) : String :=
  let q := quoteFor s.toList
  String.ofList (q :: s.toList.flatMap (quoteChar q) ++ [q])

def quotedList (ss : List String) : String := "[" ++ ", ".intercalate (ss.map quoted) ++ "]"

end ChoreReminder.Text
