import ChoreReminder.Text.Blank

/-! Names of files by path. Two paths that differ only in doubled slashes, in steps that stay where they are
or in a slash at the end have one normal form. A step upwards is kept, since it may lead through a
link; two slashes at the front are kept, since they may mean a root of their own. -/

namespace ChoreReminder.Text

def pathSteps (cs : List Char) : List (List Char) :=
  (splitBy (· == '/') cs).filter fun step => !step.isEmpty && step != ['.']

def pathRoot (cs : List Char) : List Char :=
  match cs.takeWhile (· == '/') with
  | [] => []
  | [_, _] => ['/', '/']
  | _ => ['/']

/-- The normal form of a path; the place where one stands is a point. -/
def normalPath (s : String) : String :=
  let cs := s.toList
  let steps := "/".intercalate ((pathSteps cs).map String.ofList)
  let path := String.ofList (pathRoot cs) ++ steps
  if path = "" then "." else path

end ChoreReminder.Text
