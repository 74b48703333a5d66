import ChoreReminder.Text.Casing
import ChoreReminder.Text.Halved

/-! Levels of log lines, and the outlet through which lines leave the program. An outlet has a threshold:
lines of that level and above pass in the order in which they come, the others are dropped. -/

namespace ChoreReminder.Log

inductive Level where
  | trace
  | debug
  | info
  | success
  | warning
  | error
  | critical
  deriving DecidableEq, Repr

namespace Level

def rank : Level → Nat
  | trace => 5
  | debug => 10
  | info => 20
  | success => 25
  | warning => 30
  | error => 40
  | critical => 50

def name : Level → String
  | trace => "TRACE"
  | debug => "DEBUG"
  | info => "INFO"
  | success => "SUCCESS"
  | warning => "WARNING"
  | error => "ERROR"
  | critical => "CRITICAL"

def all : List Level := [trace, debug, info, success, warning, error, critical]

end Level

structure UnknownLevel where
  name : String
  deriving DecidableEq

def UnknownLevel.message (u : UnknownLevel) : String := "Level '" ++ u.name ++ "' does not exist"

def Level.ofName (name : String) : Except UnknownLevel Level :=
  match Level.all.find? (·.name = name) with
  | some l => .ok l
  | none => .error ⟨name⟩

structure Line where
  level : Level
  text : LooseText
  deriving DecidableEq

/-- Where log lines go: as plain text, or one record a line. -/
structure Outlet where
  threshold : Level
  asRecords : Bool
  deriving DecidableEq

namespace Outlet

def ofName (name : String) (asRecords : Bool) : Except UnknownLevel Outlet :=
  (Level.ofName (Text.upperText name)).map fun l => ⟨l, asRecords⟩

def passes (o : Outlet) (l : Line) : Bool := o.threshold.rank ≤ l.level.rank

def openingLine (o : Outlet) : Line where
  level := .debug
  text := "Logging configured (level=" ++ o.threshold.name ++ ", json="
    ++ (if o.asRecords then "True" else "False") ++ ")"

def written (o : Outlet) (lines : List Line) : List Line := (o.openingLine :: lines).filter o.passes

end Outlet

end ChoreReminder.Log
