import ChoreReminder.Number.Binary64
import ChoreReminder.Text.Halved

/-! Values of data documents: what a message body, a settings file or a settings variable holds before
it is read into a type of the program. Members of an object keep the order in which their names
first appeared; a name that is no plain text stands there in quotes, and its value says so. Dates and
byte texts occur in settings files only and are accepted by no setting, so of them only the kind is kept. -/

namespace ChoreReminder

inductive ForeignKind where
  | date
  | datetime
  | bytes
  | set
  deriving DecidableEq, Repr

inductive Datum where
  | null
  | bool (b : Bool)
  | int (i : Int)
  | real (x : Binary64)
  | str (s : String)
  /-- A text with half of a surrogate pair. -/
  | halved (t : HalvedText)
  | list (items : List Datum)
  | obj (members : List (String × Datum))
  /-- The value of a member whose name is such a text. -/
  | under (name : HalvedText) (d : Datum)
  | foreign (kind : ForeignKind)
  deriving Repr, BEq, Inhabited

namespace Datum

/-- Sets a member: the first one of that name is replaced in its place, a new one comes last. -/
def setMember (name : String) (value : Datum) : List (String × Datum) → List (String × Datum)
  | [] => [(name, value)]
  | (n, v) :: rest => if n = name then (n, value) :: rest else (n, v) :: setMember name value rest

def get? (d : Datum) (name : String) : Option Datum :=
  match d with
  | .obj members => members.lookup name
  | _ => none

def get (d : Datum) (name : String) : Datum := (d.get? name).getD .null

/-- Null, false, zero and whatever is empty do not count as present. -/
def isTruthy : Datum → Bool
  | .null => false
  | .bool b => b
  | .int i => i != 0
  | .real x => !x.isZero
  | .str s => s != ""
  | .halved _ => true
  | .list items => !items.isEmpty
  | .obj members => !members.isEmpty
  | .under _ d => d.isTruthy
  | .foreign _ => true

def named (name : LooseText) (d : Datum) : String × Datum :=
  match name with
  | .whole s => (s, d)
  | .halved t => (t.quoted, .under t d)

def ofText : LooseText → Datum
  | .whole s => .str s
  | .halved t => .halved t

def memberName : String × Datum → Datum
  | (_, .under name _) => .halved name
  | (name, _) => .str name

def optionalText : Option String → Datum
  | some s => .str s
  | none => .null

/-- The integer that a value is; the truth values count as 1 and 0. -/
def wholeNumber? : Datum → Option Int
  | .int i => some i
  | .bool b => some (if b then 1 else 0)
  | _ => none

def kindName : Datum → String
  | .null => "NoneType"
  | .bool _ => "bool"
  | .int _ => "int"
  | .real _ => "float"
  | .str _ | .halved _ => "str"
  | .list _ => "list"
  | .obj _ => "dict"
  | .under _ d => d.kindName
  | .foreign .date => "date"
  | .foreign .datetime => "datetime"
  | .foreign .bytes => "bytes"
  | .foreign .set => "set"

mutual

def inner : Datum → String
  | .null => "None"
  | .bool b => if b then "True" else "False"
  | .int i => toString i
  | .real x => x.text
  | .str s => Text.quoted s
  | .halved t => t.quoted
  | .list items => "[" ++ ", ".intercalate (innerItems items) ++ "]"
  | .obj members => "\x7b" ++ ", ".intercalate (innerMembers members) ++ "\x7d"
  | .under _ d => d.inner
  | .foreign _ => ""

def innerItems : List Datum → List String
  | [] => []
  | d :: rest => d.inner :: innerItems rest

def innerMembers : List (String × Datum) → List String
  | [] => []
  | (_, .under name d) :: rest => (name.quoted ++ ": " ++ d.inner) :: innerMembers rest
  | (name, d) :: rest => (Text.quoted name ++ ": " ++ d.inner) :: innerMembers rest

end

def display : Datum → LooseText
  | .str s => s
  | .halved t => .halved t
  | d => d.inner

end Datum

end ChoreReminder
