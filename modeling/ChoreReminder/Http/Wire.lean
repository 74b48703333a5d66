import ChoreReminder.Datum.Encoding

/-! The wire to a remote service: requests that were sent and replies that are still to come. A reply is
used up by one request; when none is left, the remote side answers that all is well. -/

namespace ChoreReminder

inductive HttpReply where
  | answer (status : Int) (body : String)
  /-- The exchange failed on the way, in a known manner. -/
  | lost (kind : String) (text : LooseText)
  /-- The transport itself broke down. -/
  | broken (kind : String) (text : LooseText)
  deriving DecidableEq, Repr

/-- A request with a JSON payload; the timeout is in milliseconds. -/
structure HttpRequest where
  address : String
  payload : Datum
  timeout : Int

structure Wire where
  replies : List HttpReply
  requests : List HttpRequest

namespace Wire

def idle : Wire := ⟨[], []⟩

def defaultReply : HttpReply := .answer 200 "\x7b\"ok\":true,\"result\":true\x7d"

def exchange (w : Wire) (r : HttpRequest) : HttpReply × Wire :=
  match w.replies with
  | [] => (defaultReply, { w with requests := w.requests ++ [r] })
  | reply :: rest => (reply, { replies := rest, requests := w.requests ++ [r] })

end Wire

inductive PayloadFault where
  /-- A number in it is infinite or undefined. -/
  | number
  | encoding (fault : EncodingFault)
  deriving DecidableEq

namespace PayloadFault

def kind : PayloadFault → String
  | number => "ValueError"
  | encoding _ => "UnicodeEncodeError"

def message : PayloadFault → String
  | number => "Out of range float values are not JSON compliant"
  | encoding fault => fault.message

end PayloadFault

namespace Datum

mutual

/-- The value has a JSON text, with or without halves of surrogate pairs: no number in it is infinite or undefined. -/
def isWritable (halves : Bool) : Datum → Bool
  | .real (.infinite _) => false
  | .real .notANumber => false
  | .halved _ => halves
  | .list items => areWritable halves items
  | .obj members => haveWritable halves members
  | .under _ d => halves && d.isWritable halves
  | .foreign _ => false
  | _ => true

def areWritable (halves : Bool) : List Datum → Bool
  | [] => true
  | d :: rest => d.isWritable halves && areWritable halves rest

def haveWritable (halves : Bool) : List (String × Datum) → Bool
  | [] => true
  | (_, d) :: rest => d.isWritable halves && haveWritable halves rest

end

def isSendable (d : Datum) : Bool := d.isWritable false

def payloadFault (d : Datum) : PayloadFault :=
  if d.isWritable true then
    match (LooseText.ofUnits (Json.compact d)).stored with
    | .error f => .encoding f
    | .ok _ => .number
  else .number

end Datum

def isEscapedInAddress (c : Char) : Bool :=
  c.toNat ≤ 0x20 || 0x7e < c.toNat || c.toNat == 34 || c == '<' || c == '>' || c.toNat == 0x60
    || c == '\x7b' || c == '\x7d'

def escapeByte (b : Nat) : List Char := '%' :: (Text.fixedDigits 16 2 b).map Char.toUpper

def writtenAddress (s : String) : String :=
  String.ofList (s.toList.flatMap fun c =>
    if isEscapedInAddress c then c.toString.toUTF8.toList.flatMap fun b => escapeByte b.toNat else [c])

end ChoreReminder
