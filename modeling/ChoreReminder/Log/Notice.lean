import ChoreReminder.Log.Level
import ChoreReminder.Schedule.Due
import ChoreReminder.Telegram.Fault

/-! What the program has to say about troubles that it survives: each notice names the trouble, its cause
and the level at which it is logged. -/

namespace ChoreReminder

inductive Notice where
  /-- A row of the chores could not be read and was passed over. -/
  | choreSkipped (id : String) (fault : RowFault)
  /-- A chore could not be evaluated and was passed over. -/
  | notEvaluated (warning : DueWarning)
  /-- The due chores could not be listed for notifications. -/
  | dueUnavailable (fault : LedgerFault)
  /-- The due chores could not be listed for a request. -/
  | dueRequestFailed (fault : LedgerFault)
  | eventNotCreated (choreId : String) (fault : LedgerFault)
  | pendingUnavailable (fault : LedgerFault)
  | unroutable (channel deliveryId : String)
  | sendFailed (deliveryId channel : String) (attempt : Nat) (maxAttempts : Int) (fault : SendFault)
  /-- A delivery went through, but that could not be noted. -/
  | deliveredNotNoted (deliveryId : String) (fault : LedgerFault)
  /-- A delivery failed, and that could not be noted. -/
  | failedNotNoted (deliveryId : String) (fault : LedgerFault)
  | senderReplaced (channel : String)
  /-- Channels of the notifications for which there is no sender. -/
  | channelsWithoutSender (channels : List String)
  | pressOnUnknownChore (choreId : String)
  | pressFailed (choreId : String) (fault : PressFault)
  | pressNotAnswered (fault : CallFault)
  | keyboardNotCleared (fault : CallFault)
  | pressNotHandled (fault : PressFault)
  | pollFailed (retryDelay : Nat) (fault : CallFault)
  deriving DecidableEq

namespace Notice

def level : Notice → Log.Level
  | dueUnavailable _ | dueRequestFailed _ | eventNotCreated .. | pendingUnavailable _
  | deliveredNotNoted .. | failedNotNoted .. | pressFailed .. | pressNotHandled _ => .error
  | _ => .warning

def message : Notice → LooseText
  | choreSkipped id fault => "Skipping chore " ++ id ++ ": " ++ fault.message
  | notEvaluated warning => warning.message
  | dueUnavailable fault => "Failed to load due chores for notifications: " ++ fault.message
  | dueRequestFailed fault => "Due chores error: " ++ fault.message
  | eventNotCreated choreId fault =>
    "Failed to create due notification for chore " ++ choreId ++ ": " ++ fault.message
  | pendingUnavailable fault => "Failed to load pending notification deliveries: " ++ fault.message
  | unroutable channel deliveryId =>
    "No sender for channel '" ++ channel ++ "' (delivery " ++ deliveryId ++ ")"
  | sendFailed deliveryId channel attempt maxAttempts fault =>
    "Delivery " ++ deliveryId ++ " via " ++ channel ++ " failed (attempt " ++ toString attempt ++ "/"
      ++ toString maxAttempts ++ "): " ++ fault.text
  | deliveredNotNoted deliveryId fault =>
    "Failed to mark delivery " ++ deliveryId ++ " delivered: " ++ fault.message
  | failedNotNoted deliveryId fault =>
    "Failed to mark delivery " ++ deliveryId ++ " failed: " ++ fault.message
  | senderReplaced channel => "Replacing sender for channel '" ++ channel ++ "'"
  | channelsWithoutSender channels =>
    "No sender for notification channel(s): " ++ Text.quotedList channels
  | pressOnUnknownChore choreId => "Telegram: mark done for unknown chore " ++ choreId
  | pressFailed choreId fault =>
    "Telegram: failed to mark chore " ++ choreId ++ " done: " ++ fault.message
  | pressNotAnswered fault => "Telegram: failed to answer callback query: " ++ fault.message
  | keyboardNotCleared fault => "Telegram: failed to remove inline keyboard: " ++ fault.message
  | pressNotHandled fault => "Telegram: callback handling error: " ++ fault.message
  | pollFailed retryDelay fault =>
    "Telegram: getUpdates failed, retrying in " ++ toString retryDelay ++ "s: " ++ fault.message

def line (n : Notice) : Log.Line := ⟨n.level, n.message⟩

end Notice

end ChoreReminder
