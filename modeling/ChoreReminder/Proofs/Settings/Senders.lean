import ChoreReminder.Settings.Basic
import ChoreReminder.Proofs.Outcome
import ChoreReminder.Proofs.Text.Numeral

/-! Senders of checked settings. The check looks at Telegram only where notifications go through it, while a
sender is registered wherever Telegram is switched on; so settings that pass the check have their sender
unless the check passed them over. The two read the chat id alike, up to the blanks that they take off it. -/

namespace ChoreReminder

open Text (Denotes isBlank isSpace)

namespace TelegramChannel

theorem ofChatId_str {token text : String} {timeout : Int} {c : TelegramChannel} :
    ofChatId token (.str text) timeout = .ok c ↔
      Denotes isBlank text.toList c.chatId ∧ c.token = token ∧ c.timeout = timeout := by
  have shown : (Datum.str text).display = text := rfl
  rw [ofChatId, shown, ← Text.readInt?_trimBy_denotes]
  obtain ⟨token', n, timeout'⟩ := c
  cases read : Text.readInt? (Text.trimBy isBlank text.toList) with
  | none => simp [read]
  | some m => simp [read, and_left_comm, eq_comm]

end TelegramChannel

namespace Settings

variable {s : Settings}

def NotifiesByTelegram (s : Settings) : Prop :=
  s.notifications.enabled = true ∧ TelegramChannel.channelName ∈ s.notifications.channels

theorem checkNotifications_ok (looked : s.NotifiesByTelegram) (checked : s.checkNotifications = .ok ()) :
    ∃ n, Denotes isSpace s.telegram.chatId.toList n := by
  obtain ⟨enabled, listed⟩ := looked
  cases read : Text.readInt? s.telegram.chatId.toList with
  | some n => exact ⟨n, Text.readInt?_denotes.1 read⟩
  | none =>
    simp [checkNotifications, enabled, listed, read, ite_eq_iff] at checked

theorem senders_ok {r : Registry TelegramChannel} : s.senders = .ok r ↔
    s.telegram.enabled = false ∧ r = .empty ∨
      s.telegram.enabled = true ∧ ∃ c, r = ⟨[(TelegramChannel.channelName, c)]⟩ ∧
        TelegramChannel.ofChatId s.telegram.botToken (.str s.telegram.chatId)
          s.telegram.requestTimeout.thousandfold = .ok c := by
  unfold senders telegramChannel
  cases s.telegram.enabled with
  | false => simp [Except.map, eq_comm]
  | true =>
    cases TelegramChannel.ofChatId s.telegram.botToken (.str s.telegram.chatId)
      s.telegram.requestTimeout.thousandfold with
    | error f => simp [Except.map]
    | ok c =>
      simp [Except.map, Registry.register, Registry.set, Registry.empty, eq_comm]

theorem senders_exist_iff : (∃ r, s.senders = .ok r) ↔
    (s.telegram.enabled = true → ∃ n, Denotes isBlank s.telegram.chatId.toList n) := by
  constructor
  · rintro ⟨r, built⟩ enabled
    obtain ⟨disabled, -⟩ | ⟨-, c, -, made⟩ := senders_ok.1 built
    · rw [enabled] at disabled
      cases disabled
    · exact ⟨c.chatId, (TelegramChannel.ofChatId_str.1 made).1⟩
  · intro numeral
    cases enabled : s.telegram.enabled with
    | false => exact ⟨.empty, senders_ok.2 (.inl ⟨enabled, rfl⟩)⟩
    | true =>
      obtain ⟨n, denotes⟩ := numeral enabled
      let c : TelegramChannel := ⟨s.telegram.botToken, n, s.telegram.requestTimeout.thousandfold⟩
      exact ⟨_, senders_ok.2 (.inr ⟨enabled, c, rfl,
        TelegramChannel.ofChatId_str.2 ⟨denotes, rfl, rfl⟩⟩)⟩

/-- Settings that pass the check have their senders if the check looked at Telegram, and otherwise exactly if
Telegram is switched off or its chat id is a numeral; a sender that is registered writes to the chat whose
number the chat id denotes. -/
theorem checked_senders (s : Settings) (checked : s.checkNotifications = .ok ()) :
    let chatId := s.telegram.chatId.toList
    (s.NotifiesByTelegram → ∃ r, s.senders = .ok r) ∧
    ((∃ r, s.senders = .ok r) ↔ (s.telegram.enabled = true → ∃ n, Denotes isBlank chatId n)) ∧
    ∀ r, s.senders = .ok r →
      (r.contains TelegramChannel.channelName = s.telegram.enabled) ∧
      ∀ c, r.get? TelegramChannel.channelName = some c → ∀ n, Denotes isBlank chatId n ↔ n = c.chatId := by
  intro chatId
  refine ⟨fun looked => senders_exist_iff.2 fun _ => ?_, senders_exist_iff, fun r built => ?_⟩
  · obtain ⟨n, denotes⟩ := checkNotifications_ok looked checked
    exact ⟨n, denotes.mono Text.isBlank_of_isSpace⟩
  · obtain ⟨disabled, rfl⟩ | ⟨enabled, c, rfl, made⟩ := senders_ok.1 built
    · exact ⟨disabled.symm, fun c found => nomatch found⟩
    · obtain ⟨denotes, -⟩ := TelegramChannel.ofChatId_str.1 made
      have found : (⟨[(TelegramChannel.channelName, c)]⟩ : Registry TelegramChannel).get?
          TelegramChannel.channelName = some c := by simp [Registry.get?]
      refine ⟨by rw [Registry.contains, found, enabled]; rfl, fun c' found' n => ?_⟩
      obtain rfl := Option.some.inj (found.symm.trans found')
      constructor
      · intro denotes'
        have read := Text.readInt?_trimBy_denotes.2 denotes
        exact Option.some.inj ((Text.readInt?_trimBy_denotes.2 denotes').symm.trans read)
      · rintro rfl
        exact denotes

/-- A chat id with blanks around it, a sign, an underscore and digits of another script. -/
theorem checked_senders_negative :
    let s : Settings := {
      notifications := { enabled := true }
      telegram := { enabled := true, botToken := "1:abc", chatId := " -1_0\u0663\u2003" } }
    s.checkNotifications = .ok () ∧ s.NotifiesByTelegram ∧
    (∃ r, s.senders = .ok r) ∧
    ∀ r, s.senders = .ok r → ∀ c, r.get? TelegramChannel.channelName = some c → c.chatId = -103 := by
  intro s
  have checked : s.checkNotifications = .ok () := by decide +kernel
  have looked : s.NotifiesByTelegram := ⟨rfl, List.mem_singleton_self _⟩
  have denotes : Denotes isBlank s.telegram.chatId.toList (-103) :=
    Text.readInt?_trimBy_denotes.1 (by decide +kernel)
  obtain ⟨built, -, registered⟩ := checked_senders s checked
  refine ⟨checked, looked, built looked, fun r built c found => ?_⟩
  exact ((registered r built).2 c found (-103)).1 denotes |>.symm

/-- Telegram is switched on without notifications: the check passes the chat id over, and no sender can be
made of it. -/
theorem unchecked_chatId :
    let s : Settings := { telegram := { enabled := true, botToken := "1:abc", chatId := "abc" } }
    s.checkNotifications = .ok () ∧ ∃ bad, s.senders = .error bad ∧
      bad.message = "Invalid chat_id 'abc': expected numeric chat id" :=
  ⟨by decide +kernel, ⟨"abc"⟩, rfl, by decide +kernel⟩

end Settings

end ChoreReminder
