import ChoreReminder.Datum.Field
import ChoreReminder.Notify.Registry
import ChoreReminder.Telegram.Channel

/-! The settings of the program, with their default values, and how they are read from a document.
Sections and settings that a document leaves out keep their defaults; members that it has beyond the
known ones do not count. -/

namespace ChoreReminder

structure NotificationSettings where
  enabled : Bool := false
  pollInterval : Int := 60
  dispatchInterval : Int := 15
  maxAttempts : Int := 5
  batchSize : Int := 50
  channels : List String := [TelegramChannel.channelName]
  deriving DecidableEq

inductive CallbackMode where
  | polling
  | webhook
  deriving DecidableEq, Repr

def CallbackMode.name : CallbackMode → String
  | polling => "polling"
  | webhook => "webhook"

structure TelegramSettings where
  enabled : Bool := false
  botToken : String := ""
  chatId : String := ""
  callbackMode : CallbackMode := .polling
  webhookSecret : String := ""
  pollTimeout : Int := 30
  requestTimeout : Binary64 := .ofInt 30
  deriving DecidableEq

structure LoggingSettings where
  level : String := "INFO"
  jsonLogs : Bool := false
  deriving DecidableEq

structure Settings where
  notifications : NotificationSettings := {}
  telegram : TelegramSettings := {}
  databasePath : String := "data/nagbot.db"
  logging : LoggingSettings := {}
  deriving DecidableEq

namespace Datum

def toIntFrom (low : Int) (d : Datum) : Reading Int := d.toInt.check (low ≤ ·) .atLeast

def toSection {α : Type} (read : Datum → Reading α) (d : Datum) : Reading α :=
  match d with
  | .obj _ => read d
  | _ => .fail .modelType

end Datum

def NotificationSettings.ofDatum (d : Datum) : Reading NotificationSettings :=
  let base : NotificationSettings := {}
  let enabled := d.optionalField "enabled" Datum.toBool base.enabled
  let poll := d.optionalField "poll_interval_s" (Datum.toIntFrom 1) base.pollInterval
  let dispatch := d.optionalField "dispatch_interval_s" (Datum.toIntFrom 1) base.dispatchInterval
  let attempts := d.optionalField "max_attempts" (Datum.toIntFrom 1) base.maxAttempts
  let batch := d.optionalField "batch_size" (Datum.toIntFrom 1) base.batchSize
  let channels := d.optionalField "channels" Datum.toStrings base.channels
  .ap (.ap (.ap (.ap (.ap (enabled.map .mk) poll) dispatch) attempts) batch) channels

def CallbackMode.ofDatum (d : Datum) : Reading CallbackMode :=
  match d with
  | .str "polling" => .ok .polling
  | .str "webhook" => .ok .webhook
  | _ => .fail .literal

namespace TelegramSettings

/-- A chat id may be given as a number; its text is what counts. -/
def readChatId (d : Datum) : Reading String :=
  match d.wholeNumber? with
  | some _ => .ok d.inner
  | none => d.toStr

def readTimeout (d : Datum) : Reading Binary64 := d.toFloat.check (!·.isNonPositive) .above

def ofDatum (d : Datum) : Reading TelegramSettings :=
  let base : TelegramSettings := {}
  let enabled := d.optionalField "enabled" Datum.toBool base.enabled
  let token := d.optionalField "bot_token" Datum.toStr base.botToken
  let chat := d.optionalField "chat_id" readChatId base.chatId
  let mode := d.optionalField "callback_mode" CallbackMode.ofDatum base.callbackMode
  let secret := d.optionalField "webhook_secret" Datum.toStr base.webhookSecret
  let poll := d.optionalField "poll_timeout_s" (Datum.toIntFrom 0) base.pollTimeout
  let request := d.optionalField "request_timeout_s" readTimeout base.requestTimeout
  .ap (.ap (.ap (.ap (.ap (.ap (enabled.map .mk) token) chat) mode) secret) poll) request

end TelegramSettings

def LoggingSettings.ofDatum (d : Datum) : Reading LoggingSettings :=
  let base : LoggingSettings := {}
  let level := d.optionalField "level" Datum.toStr base.level
  let json := d.optionalField "json_logs" Datum.toBool base.jsonLogs
  .ap (level.map .mk) json

namespace Settings

def ofDatum (d : Datum) : Reading Settings :=
  let base : Settings := {}
  let telegram (d : Datum) : Reading TelegramSettings :=
    d.optionalField "telegram" (Datum.toSection TelegramSettings.ofDatum) base.telegram
  let path (d : Datum) : Reading String := d.optionalField "path" Datum.toStr base.databasePath
  let notifications := d.optionalField "notifications"
    (Datum.toSection NotificationSettings.ofDatum) base.notifications
  let channels := d.optionalField "channels" (Datum.toSection telegram) base.telegram
  let database := d.optionalField "database" (Datum.toSection path) base.databasePath
  let logging := d.optionalField "logging" (Datum.toSection LoggingSettings.ofDatum) base.logging
  .ap (.ap (.ap (notifications.map .mk) channels) database) logging

def telegramEnabled (s : Settings) : Bool :=
  s.telegram.enabled && s.notifications.channels.contains TelegramChannel.channelName

inductive Missing where
  | settings (names : List String)
  | chatId (shown : String)
  deriving DecidableEq

def Missing.message : Missing → String
  | settings names => "Notifications are enabled but the following settings are not set: "
      ++ ", ".intercalate names
  | chatId shown => "Invalid telegram chat_id '" ++ shown ++ "': expected numeric chat id"

def checkNotifications (s : Settings) : Except Missing Unit :=
  if !s.notifications.enabled || !s.notifications.channels.contains TelegramChannel.channelName then
    .ok ()
  else
    let names := (if s.telegram.botToken = "" then ["NAGBOT_CHANNELS__TELEGRAM__BOT_TOKEN"] else [])
      ++ (if s.telegram.chatId = "" then ["NAGBOT_CHANNELS__TELEGRAM__CHAT_ID"] else [])
    if !names.isEmpty then .error (.settings names)
    else if (Text.readInt? s.telegram.chatId.toList).isSome then .ok ()
    else .error (.chatId s.telegram.chatId)

def telegramChannel (s : Settings) : Except BadChatId (Option TelegramChannel) :=
  if s.telegram.enabled then
    (TelegramChannel.ofChatId s.telegram.botToken (.str s.telegram.chatId)
      s.telegram.requestTimeout.thousandfold).map some
  else .ok none

def senders (s : Settings) : Except BadChatId (Registry TelegramChannel) :=
  s.telegramChannel.map fun
    | some c => Registry.empty.register TelegramChannel.channelName c
    | none => .empty

def unrouted {α : Type} (s : Settings) (senders : Registry α) : List String :=
  s.notifications.channels.filter (!senders.contains ·)

end Settings

end ChoreReminder
