import ChoreReminder.CommandLine.Markup

/-! What a command shows on the terminal: lines of text, and tables as their title, their heading and their
rows. Lines and cells are shown without blanks at their ends; a cell of several lines makes as many
rows, and a line of text with nothing on it is left out. -/

namespace ChoreReminder

inductive ReportLine where
  | text (s : String)
  | row (cells : List String)
  deriving DecidableEq, Repr

structure Table where
  title : String
  heading : List String
  rows : List (List String)

namespace ReportLine

def tabWidth : Nat := 8

def withoutTabs (column : Nat) : List Char → List Char
  | [] => []
  | c :: rest =>
    if c = '\t' then
      let width := tabWidth - column % tabWidth
      List.replicate width ' ' ++ withoutTabs (column + width) rest
    else c :: withoutTabs (column + 1) rest

def linesOf (s : String) : List String :=
  (Text.splitBy (· == '\n') s.toList).map fun cs =>
    String.ofList (Text.trimBy Text.isBlank (withoutTabs 0 cs))

def ofMarkup (console : Console) (s : String) : Except MarkupFault (List ReportLine) := do
  return ((linesOf (← console s)).filter (· ≠ "")).map .text

def ofCells (console : Console) (cells : List String) : Except MarkupFault (List ReportLine) := do
  let columns ← cells.mapM fun cell => (console cell).map linesOf
  let height := columns.foldl (fun n column => max n column.length) 0
  return (List.range height).map fun n => .row (columns.map fun column => column.getD n "")

end ReportLine

def Table.lines (console : Console) (t : Table) : Except MarkupFault (List ReportLine) := do
  let rows ← t.rows.mapM (ReportLine.ofCells console)
  return .text t.title :: .row t.heading :: rows.flatten

end ChoreReminder
