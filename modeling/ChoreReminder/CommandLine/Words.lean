/-! The words of a command line, sorted into options and other words. An option is named by a word or by a
letter; its value follows it, after an equals sign for a word and at once for a letter, or as the next
word whatever that looks like. Letters may share a dash. Two dashes end the options. -/

namespace ChoreReminder

structure OptionSpec where
  names : List String
  takesValue : Bool

namespace OptionSpec

def key (o : OptionSpec) : String := o.names.headD ""

def flag (names : List String) : OptionSpec := ⟨names, false⟩

def valued (names : List String) : OptionSpec := ⟨names, true⟩

end OptionSpec

structure GivenOption where
  key : String
  value : Option String
  deriving DecidableEq, Repr

structure Words where
  options : List GivenOption := []
  others : List String := []
  deriving DecidableEq, Repr

namespace Words

def find? (specs : List OptionSpec) (name : String) : Option OptionSpec :=
  specs.find? (·.names.contains name)

abbrev Part := List GivenOption × Option String

def readLetters (specs : List OptionSpec) : List Char → Option Part
  | [] => some ([], none)
  | c :: rest => do
    let o ← find? specs (String.ofList ['-', c])
    if o.takesValue then
      if rest.isEmpty then return ([], some o.key)
      else return ([⟨o.key, some (String.ofList rest)⟩], none)
    else
      let (given, lacking) ← readLetters specs rest
      return (⟨o.key, none⟩ :: given, lacking)

def readOption (specs : List OptionSpec) (cs : List Char) : Option Part :=
  let name := cs.takeWhile (· != '=')
  let value := (cs.dropWhile (· != '=')).drop 1
  let isNamed := cs.contains '='
  if cs.take 2 == ['-', '-'] then do
    let o ← find? specs (String.ofList name)
    if o.takesValue then
      if isNamed then return ([⟨o.key, some (String.ofList value)⟩], none)
      else return ([], some o.key)
    else if isNamed then none
    else return ([⟨o.key, none⟩], none)
  else readLetters specs (cs.drop 1)

/-- Sorts the words, `none` if an option is not known or lacks its value. Unless options may stand anywhere,
they end at the first other word. -/
def sort (specs : List OptionSpec) (anywhere : Bool) : List String → Option Words
  | [] => some {}
  | word :: rest =>
    let cs := word.toList
    if word = "--" then some { others := rest }
    else if cs.head? = some '-' ∧ 1 < cs.length then
      match readOption specs cs with
      | none => none
      | some (given, none) =>
        (sort specs anywhere rest).map fun w => { w with options := given ++ w.options }
      | some (given, some key) =>
        match rest with
        | [] => none
        | value :: rest =>
          (sort specs anywhere rest).map fun w =>
            { w with options := given ++ ⟨key, some value⟩ :: w.options }
    else if anywhere then
      (sort specs anywhere rest).map fun w => { w with others := word :: w.others }
    else some { others := word :: rest }

def has (w : Words) (key : String) : Bool := w.options.any (·.key = key)

def value? (w : Words) (key : String) : Option String :=
  (w.options.reverse.find? (·.key = key)).bind (·.value)

end Words

end ChoreReminder
