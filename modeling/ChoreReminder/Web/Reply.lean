import ChoreReminder.Datum.Basic

/-! Answers of the web interface. -/

namespace ChoreReminder

structure WebReply where
  status : Nat
  body : Option Datum

namespace WebReply

def ok (body : Datum) : WebReply := ⟨200, some body⟩

def detail (status : Nat) (text : String) : WebReply := ⟨status, some (.obj [("detail", .str text)])⟩

end WebReply

end ChoreReminder
