import ChoreReminder.Yaml.Token

/-! The nodes of a YAML document: texts, sequences and mappings, each perhaps with a tag. They are read off
the tokens from left to right; a node with an anchor can be meant again by an alias further on. An
alias inside the collection that it names stands for the collection as long as it is empty. -/

namespace ChoreReminder.Yaml

inductive Node where
  /-- A text; one that is open denotes what its form says, any other a text. -/
  | scalar (tag : Option String) (isOpen : Bool) (text : String)
  | sequence (tag : Option String) (items : List Node)
  | mapping (tag : Option String) (pairs : List (Node × Node))
  deriving Inhabited

namespace Node

def empty : Node := .scalar none true ""

abbrev Handles := List (String × String)

structure Source where
  tokens : List Token
  anchors : List (String × Node) := []

abbrev Compose := StateT Source (Except Fault)

def nextIs (ts : List Token) : Compose Bool := do
  return (← get).tokens.head?.any ts.contains

def advance : Compose Unit := modify fun s => { s with tokens := s.tokens.tail }

def take (t : Token) : Compose Bool := do
  if ← nextIs [t] then
    advance
    return true
  else return false

def expect (t : Token) : Compose Unit := do
  if ← take t then return else throw .malformed

def emptyBefore (ends : List Token) (node : Compose Node) : Compose Node := do
  if ← nextIs ends then return empty else node

def named (name : String) : Compose Node := do
  match (← get).anchors.lookup name with
  | some n => return n
  | none => throw .malformed

def declare (anchor : Option String) (n : Node) : Compose Unit := do
  let s ← get
  match anchor with
  | none => return
  | some name =>
    if (s.anchors.lookup name).isSome then throw .malformed
    else set { s with anchors := (name, n) :: s.anchors }

/-- Puts the whole node in the place of the beginning that an anchor was given to. -/
def complete (anchor : Option String) (n : Node) : Compose Node := do
  modify fun s => { s with anchors := (anchor.map (·, n)).toList ++ s.anchors }
  return n

structure Properties where
  anchor : Option String := none
  tag : Option String := none

def takeAnchor? : Compose (Option String) := do
  match (← get).tokens.head? with
  | some (.anchor name) =>
    advance
    return some name
  | _ => return none

def takeTag? (handles : Handles) : Compose (Option String) := do
  match (← get).tokens.head? with
  | some (.tag none suffix) =>
    advance
    return some suffix
  | some (.tag (some handle) suffix) =>
    advance
    match handles.lookup handle with
    | some meaning => return some (meaning ++ suffix)
    | none => throw .malformed
  | _ => return none

def takeProperties (handles : Handles) : Compose Properties := do
  match ← takeAnchor? with
  | some anchor => return ⟨some anchor, ← takeTag? handles⟩
  | none =>
    match ← takeTag? handles with
    | some tag => return ⟨← takeAnchor?, some tag⟩
    | none => return {}

inductive Place where
  /-- Inside brackets or braces, where there are no blocks. -/
  | flow
  | block
  /-- In a block mapping, where a sequence need not be indented. -/
  | field
  deriving DecidableEq

mutual

/-- Reads a node. The bare exclamation mark as a tag says that the form of the text counts. -/
def read (handles : Handles) : (fuel : Nat) → Place → Compose Node
  | 0, _ => throw .malformed
  | fuel + 1, place => do
    if let some (.alias name) := (← get).tokens.head? then
      advance
      return ← named name
    let ⟨anchor, written⟩ ← takeProperties handles
    let tag := written.filter (· ≠ "!")
    match (← get).tokens.head?, decide (place = .flow) with
    | some (.scalar text plain), _ =>
      advance
      let n := scalar tag ((plain && written.isNone) || written == some "!") text
      declare anchor n
      return n
    | some .openBracket, _ =>
      advance
      declare anchor (.sequence tag [])
      complete anchor (.sequence tag (← flowItems handles fuel true))
    | some .openBrace, _ =>
      advance
      declare anchor (.mapping tag [])
      complete anchor (.mapping tag (← flowPairs handles fuel true))
    | some .sequenceStart, false =>
      advance
      declare anchor (.sequence tag [])
      let items ← dashItems handles fuel [.dash, .blockEnd]
      expect .blockEnd
      complete anchor (.sequence tag items)
    | some .mappingStart, false =>
      advance
      declare anchor (.mapping tag [])
      complete anchor (.mapping tag (← blockPairs handles fuel))
    | next, _ =>
      if place = .field ∧ next = some .dash then
        declare anchor (.sequence tag [])
        complete anchor
          (.sequence tag (← dashItems handles fuel [.dash, .key, .value, .blockEnd]))
      else if anchor.isSome || written.isSome then
        let n := scalar tag tag.isNone ""
        declare anchor n
        return n
      else throw .malformed

def dashItems (handles : Handles) : (fuel : Nat) → (ends : List Token) → Compose (List Node)
  | 0, _ => throw .malformed
  | fuel + 1, ends => do
    if ← take .dash then
      let item ← emptyBefore ends (read handles fuel .block)
      return item :: (← dashItems handles fuel ends)
    else return []

def blockPairs (handles : Handles) : (fuel : Nat) → Compose (List (Node × Node))
  | 0 => throw .malformed
  | fuel + 1 => do
    let ends := [Token.key, .value, .blockEnd]
    if ← take .key then
      let key ← emptyBefore ends (read handles fuel .field)
      let value ← if ← take .value then emptyBefore ends (read handles fuel .field) else pure empty
      return (key, value) :: (← blockPairs handles fuel)
    else
      expect .blockEnd
      return []

/-- Reads items up to the closing bracket. A key among them makes a mapping of its own. -/
def flowItems (handles : Handles) : (fuel : Nat) → (isFirst : Bool) → Compose (List Node)
  | 0, _ => throw .malformed
  | fuel + 1, isFirst => do
    if ← take .closeBracket then return []
    if !isFirst then expect .comma
    if ← take .key then
      let key ← emptyBefore [.value, .comma, .closeBracket] (read handles fuel .flow)
      let value ←
        if ← take .value then emptyBefore [.comma, .closeBracket] (read handles fuel .flow)
        else pure empty
      return .mapping none [(key, value)] :: (← flowItems handles fuel false)
    if ← take .closeBracket then return []
    let item ← read handles fuel .flow
    return item :: (← flowItems handles fuel false)

def flowPairs (handles : Handles) : (fuel : Nat) → (isFirst : Bool) →
    Compose (List (Node × Node))
  | 0, _ => throw .malformed
  | fuel + 1, isFirst => do
    if ← take .closeBrace then return []
    if !isFirst then expect .comma
    if ← take .key then
      let key ← emptyBefore [.value, .comma, .closeBrace] (read handles fuel .flow)
      let value ←
        if ← take .value then emptyBefore [.comma, .closeBrace] (read handles fuel .flow)
        else pure empty
      return (key, value) :: (← flowPairs handles fuel false)
    if ← take .closeBrace then return []
    let key ← read handles fuel .flow
    return (key, empty) :: (← flowPairs handles fuel false)

end

def defaultHandles : Handles := [("!", "!"), ("!!", "tag:yaml.org,2002:")]

/-- Reads the directives before a document: the version at most once, each handle once. -/
def takeDirectives (hasVersion : Bool) (handles : Handles) :
    List Token → Except Fault (Handles × List Token)
  | .directive (.version major) :: rest =>
    if hasVersion || major ≠ 1 then .error .malformed else takeDirectives true handles rest
  | .directive (.handle name meaning) :: rest =>
    if (handles.lookup name).isSome then .error .malformed
    else takeDirectives hasVersion ((name, meaning) :: handles) rest
  | .directive .other :: rest => takeDirectives hasVersion handles rest
  | rest => .ok (handles ++ defaultHandles, rest)

def readDocument (handles : Handles) (ts : List Token) : Except Fault (Node × List Token) := do
  let (n, s) ← (read handles (2 * ts.length + 2) .block).run { tokens := ts }
  return (n, s.tokens)

def readMarked (ts : List Token) : Except Fault (Node × List Token) := do
  match ← takeDirectives false [] ts with
  | (handles, .documentStart :: rest) =>
    match rest with
    | .directive _ :: _ | .documentStart :: _ | .documentEnd :: _ | .streamEnd :: _ =>
      return (empty, rest)
    | _ => readDocument handles rest
  | _ => .error .malformed

/-- The node of the one document that tokens make up, `none` if there is no document. -/
def ofTokens? (ts : List Token) : Except Fault (Option Node) := do
  let (n, rest) ← match ts with
    | .streamEnd :: _ => pure (none, ts)
    | .directive _ :: _ | .documentStart :: _ => (readMarked ts).map fun (n, rest) => (some n, rest)
    | _ => (readDocument defaultHandles ts).map fun (n, rest) => (some n, rest)
  if rest.dropWhile (· == .documentEnd) = [.streamEnd] then return n else .error .malformed

end Node

end ChoreReminder.Yaml
