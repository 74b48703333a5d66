import ChoreReminder.Yaml.Form
import ChoreReminder.Yaml.Node

/-! The value of a YAML document. Of two equal keys the later one counts; a merge key takes in the pairs of
another mapping in front of the mapping's own. A collection cannot be a key. Members whose keys are
no texts belong to no setting, so of them only their presence at the outermost level is noted. -/

namespace ChoreReminder.Yaml

structure Entry where
  name : Option String
  value : Datum

namespace Entry

def members (es : List Entry) : List (String × Datum) :=
  es.foldl (fun ms e => e.name.elim ms fun name => Datum.setMember name e.value ms) []

end Entry

namespace Node

def kind : Node → Kind
  | .scalar (some tag) _ _ | .sequence (some tag) _ | .mapping (some tag) _ => .ofTag tag
  | .scalar none isOpen text => if isOpen then .ofForm text else .str
  | .sequence none _ => .sequence
  | .mapping none _ => .mapping

/-- The text of a node. A mapping has one if a key says that its value stands for the whole. -/
def text? : Node → Option String
  | .scalar _ _ text => some text
  | .sequence .. => none
  | .mapping _ pairs => ofPairs pairs
where
  ofPairs : List (Node × Node) → Option String
    | [] => none
    | (key, value) :: rest => if key.kind = .value then value.text? else ofPairs rest

def isPair : Node → Bool
  | .mapping _ [_] => true
  | _ => false

mutual

def value : Node → Except Fault Datum
  | .scalar tag isOpen text => readText (Node.scalar tag isOpen text).kind text
  | .sequence tag items => do
    let ds ← values items
    match (Node.sequence tag items).kind with
    | .sequence => return .list ds
    | .pairs => if items.all isPair then return .list ds else .error .malformed
    | _ => .error .malformed
  | .mapping tag pairs => do
    match (Node.mapping tag pairs).kind with
    | .mapping =>
      let (merged, own) ← entries pairs
      return .obj (Entry.members (merged ++ own))
    | .set =>
      let _ ← entries pairs
      return .foreign .set
    | kind =>
      match (Node.mapping tag pairs).text? with
      | some text => readText kind text
      | none => .error .malformed

def values : List Node → Except Fault (List Datum)
  | [] => .ok []
  | n :: rest => do return (← n.value) :: (← values rest)

def entries : List (Node × Node) → Except Fault (List Entry × List Entry)
  | [] => .ok ([], [])
  | (key, n) :: rest => do
    if key.kind = .merge then
      let taken ← match n with
        | .mapping _ pairs => do
          let (merged, own) ← entries pairs
          pure (merged ++ own)
        | .sequence _ items => takenFrom items
        | .scalar .. => .error .malformed
      let (merged, own) ← entries rest
      return (taken ++ merged, own)
    else
      let name ← match key.kind, key with
        | .value, .scalar _ _ text => pure (some text)
        | .set, _ => .error .malformed
        | _, _ =>
          match ← key.value with
          | .str s => pure (some s)
          | .list _ | .obj _ => .error .malformed
          | _ => pure none
      let d ← n.value
      let (merged, own) ← entries rest
      return (merged, ⟨name, d⟩ :: own)

/-- The pairs of several mappings; those of the first one count most, so they come last. -/
def takenFrom : List Node → Except Fault (List Entry)
  | [] => .ok []
  | .mapping _ pairs :: rest => do
    let (merged, own) ← entries pairs
    return (← takenFrom rest) ++ (merged ++ own)
  | _ :: _ => .error .malformed

end

end Node

structure Document where
  value : Datum
  /-- The outermost keys are all texts. -/
  hasTextKeys : Bool

namespace Document

def ofNode (n : Node) : Except Fault Document := do
  let value ← n.value
  match n with
  | .mapping _ pairs =>
    if n.kind = .mapping then
      let (merged, own) ← Node.entries pairs
      return ⟨value, (merged ++ own).all (·.name.isSome)⟩
    else return ⟨value, true⟩
  | _ => return ⟨value, true⟩

def read (cs : List Char) : Except Fault Document := do
  match ← Node.ofTokens? (← tokens cs) with
  | some n => ofNode n
  | none => return ⟨.null, true⟩

end Document

end ChoreReminder.Yaml
