/-! Escaping of text for HTML messages. The five characters with a meaning in markup are written as
entities, so an escaped text holds no angle bracket and no quote. -/

namespace ChoreReminder.Text

def htmlChar (c : Char) : List Char :=
  if c = '&' then "&amp;".toList
  else if c = '<' then "&lt;".toList
  else if c = '>' then "&gt;".toList
  else if c.toNat = 34 then "&quot;".toList
  else if c.toNat = 39 then "&#x27;".toList
  else [c]

def escapeHtml (s : String) : String := String.ofList (s.toList.flatMap htmlChar)

end ChoreReminder.Text
