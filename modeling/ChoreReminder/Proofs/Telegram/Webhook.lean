import ChoreReminder.Telegram.Webhook

/-! The secret of the updates that are brought. Who brings one without the secret learns nothing and changes
nothing, whatever the body says; who brings one with it is not turned away. What goes beyond ASCII is not
compared at all, so that a secret beyond ASCII shuts everyone out. -/

namespace ChoreReminder.Webhook

variable {h : Webhook} {c : TelegramChannel} {now : Instant} {token : Option String} {d : Desk}

/-- What was given for the secret, nothing counting as empty, can be compared with it. -/
def comparable (h : Webhook) (token : Option String) : Bool := isAscii (token.getD "") && isAscii h.secret

def turnedAway (h : Webhook) (token : Option String) : Except WebhookFault WebReply :=
  if h.comparable token then .ok (refusal 403 "Invalid secret token") else .error .incomparable

theorem admits_eq (set : h.secret ≠ "") (token : Option String) : h.admits token =
    if h.comparable token then .ok (token.getD "" == h.secret) else .error .incomparable :=
  if_neg set

theorem post_eq (on : h.channel = some c) (set : h.secret ≠ "") (now : Instant) (token : Option String)
    (bytes : List Nat) (d : Desk) : h.post now token bytes d =
      if h.comparable token = true ∧ token.getD "" = h.secret then
        handleBody c now (Datum.Json.readBytes? bytes) d
      else (h.turnedAway token, d) := by
  simp only [post, on, admits_eq set, turnedAway]
  cases compared : h.comparable token with
  | false => simp
  | true =>
    by_cases same : token.getD "" = h.secret
    · simp [same]
    · simp [same, beq_false_of_ne same]

theorem handleBody_status {body : Option Datum} {answer : WebReply}
    (answered : (handleBody c now body d).1 = .ok answer) :
    answer.status = 200 ∧ (∃ members, body = some (.obj members)) ∨
      answer.status = 400 ∧ ¬ ∃ members, body = some (.obj members) := by
  unfold handleBody at answered
  split at answered
  · next members =>
    refine .inl ⟨?_, members, rfl⟩
    dsimp only at answered
    split at answered
    · generalize Press.handle c now ((Datum.obj members).get "callback_query") d = pressed at answered
      obtain ⟨f | reply, d'⟩ := pressed
      · cases answered
      · cases answered
        rfl
    · cases answered
      rfl
  · next other =>
    cases answered
    exact .inr ⟨rfl, fun ⟨members, same⟩ => other members same⟩

/-- Without the secret, every body gets the same answer, 403 if the texts can be compared, and nothing
happens; with it, the body is handled, unless the secret goes beyond ASCII, and the answer is not 403. -/
theorem secret_guards {secret : String} (set : secret ≠ "") (c : TelegramChannel) (now : Instant)
    (token : Option String) (d : Desk) :
    let h : Webhook := ⟨some c, secret⟩
    let given := token.getD ""
    (given ≠ secret → ∀ bytes bytes', h.post now token bytes d = h.post now token bytes' d ∧
      h.post now token bytes d = (if isAscii given && isAscii secret
        then .ok (refusal 403 "Invalid secret token") else .error .incomparable, d)) ∧
    (given = secret → ∀ bytes, h.post now token bytes d = if isAscii secret
      then handleBody c now (Datum.Json.readBytes? bytes) d else (.error .incomparable, d)) ∧
    (given = secret → ∀ bytes answer, (h.post now token bytes d).1 = .ok answer → answer.status ≠ 403 ∧
      (answer.status = 400 ↔ ¬ ∃ members, Datum.Json.readBytes? bytes = some (.obj members))) := by
  intro h given
  have posted := post_eq (h := h) rfl set now token (d := d)
  have wrong (differ : given ≠ secret) (bytes : List Nat) :
      h.post now token bytes d = (h.turnedAway token, d) :=
    (posted bytes).trans (if_neg fun both => differ both.2)
  have right (same : given = secret) (bytes : List Nat) : h.post now token bytes d = if isAscii secret
      then handleBody c now (Datum.Json.readBytes? bytes) d else (.error .incomparable, d) := by
    rw [posted, turnedAway, comparable]
    change given = h.secret at same
    unfold given at same
    rw [same, Bool.and_self]
    by_cases ascii : isAscii h.secret = true
    · rw [if_pos ⟨ascii, rfl⟩, if_pos ascii]
    · rw [if_neg fun both => ascii both.1, if_neg ascii, if_neg ascii]
  refine ⟨fun differ bytes bytes' => ?_, right, fun same bytes answer answered => ?_⟩
  · exact ⟨(wrong differ bytes).trans (wrong differ bytes').symm, wrong differ bytes⟩
  · rw [right same] at answered
    split at answered
    · obtain ⟨status, object⟩ | ⟨status, other⟩ := handleBody_status answered <;> rw [status]
      · exact ⟨by decide, iff_of_false (by decide) fun other => other object⟩
      · exact ⟨by decide, iff_of_true rfl other⟩
    · cases answered

/-- A guess at a secret gets the same answer with and without a body. -/
theorem secret_guards_guess :
    let h : Webhook := ⟨some ⟨"", 1, 1000⟩, "s3cret"⟩
    let d : Desk := ⟨.ofLedger .empty, .idle, []⟩
    h.secret ≠ "" ∧
    h.post ⟨0, by decide⟩ (some "guess") [] d = (.ok (refusal 403 "Invalid secret token"), d) ∧
    h.post ⟨0, by decide⟩ (some "guess") [0x7b, 0x7d] d = h.post ⟨0, by decide⟩ (some "guess") [] d := by
  intro h d
  have set : h.secret ≠ "" := by decide +kernel
  have other : (some "guess").getD "" ≠ h.secret := by decide +kernel
  have ascii : (isAscii ((some "guess").getD "") && isAscii h.secret) = true := by decide +kernel
  obtain ⟨same, answer⟩ :=
    (secret_guards set ⟨"", 1, 1000⟩ ⟨0, by decide⟩ (some "guess") d).1 other [] [0x7b, 0x7d]
  rw [if_pos ascii] at answer
  exact ⟨set, answer, same.symm⟩

/-- A token beyond ASCII in place of the secret gets no answer. -/
theorem token_incomparable :
    let h : Webhook := ⟨some ⟨"", 1, 1000⟩, "s3cret"⟩
    let d : Desk := ⟨.ofLedger .empty, .idle, []⟩
    h.post ⟨0, by decide⟩ (some "é") [] d = (.error .incomparable, d) := by
  intro h d
  have set : h.secret ≠ "" := by decide +kernel
  have beyond : h.comparable (some "é") = false := by decide +kernel
  simp [post_eq (h := h) rfl set, turnedAway, beyond]

/-! ### Many updates -/

structure Brought where
  now : Instant
  token : Option String
  bytes : List Nat

def after (h : Webhook) (d : Desk) (updates : List Brought) : Desk :=
  updates.foldl (fun d u => (h.post u.now u.token u.bytes d).2) d

/-- Updates that are brought without the secret could as well not have been brought. -/
theorem after_filter (on : h.channel = some c) (set : h.secret ≠ "") (updates : List Brought) (d : Desk) :
    h.after d updates = h.after d (updates.filter (·.token.getD "" = h.secret)) := by
  unfold after
  induction updates generalizing d with
  | nil => rfl
  | cons u rest ih =>
    rw [List.foldl_cons, ih]
    by_cases known : u.token.getD "" = h.secret
    · rw [List.filter_cons_of_pos (by simpa using known), List.foldl_cons]
    · rw [List.filter_cons_of_neg (by simpa using known), post_eq on set, if_neg fun both => known both.2]

end ChoreReminder.Webhook
