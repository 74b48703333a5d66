import Mathlib.Data.List.Basic
import ChoreReminder.Proofs.Telegram.Keyboard
import ChoreReminder.Proofs.Text.Html

/-! The text of a message. Whatever a title and a body hold, the only markup in the text is the one pair of tags
around the title; the text comes apart at the tags in one way only, and the parts are read as the title and the
body that were given. -/

namespace ChoreReminder

namespace TelegramChannel

open Text (escapeHtml unescapeHtml escapeHtml_plain unescapeHtml_escapeHtml Referring)

theorem tagged_toList (inside after : String) : ("<b>" ++ inside ++ "</b>\n" ++ after).toList =
    ['<', 'b', '>'] ++ (inside.toList ++ '<' :: (['/', 'b', '>', '\n'] ++ after.toList)) := by
  simp [String.toList_append]

theorem tagged_inj {inside after inside' after' : String}
    (plain : ∀ x ∈ inside.toList ++ after.toList, x ≠ '<')
    (same : "<b>" ++ inside ++ "</b>\n" ++ after = "<b>" ++ inside' ++ "</b>\n" ++ after') :
    inside = inside' ∧ after = after' := by
  have lists := congrArg String.toList same
  rw [tagged_toList, tagged_toList] at lists
  have between : '<' ∉ inside.toList := fun tag => plain _ (List.mem_append_left _ tag) rfl
  have behind : '<' ∉ ['/', 'b', '>', '\n'] ++ after.toList := by
    intro tag
    rcases List.mem_append.1 tag with template | tag
    · exact absurd template (by decide)
    · exact plain _ (List.mem_append_right _ tag) rfl
  obtain ⟨front, -, back⟩ :=
    (List.append_cons_inj_of_notMem between behind).1 (List.append_cancel_left lists)
  exact ⟨String.toList_inj.1 front, String.toList_inj.1 (List.append_cancel_left back)⟩

theorem tagged_referring {inside after : String} (inner : Referring inside.toList)
    (outer : Referring after.toList) : Referring ("<b>" ++ inside ++ "</b>\n" ++ after).toList := by
  have template (cs : List Char) (free : '&' ∉ cs) : Referring cs := .of_free free
  rw [tagged_toList, ← List.singleton_append (l := ['/', 'b', '>', '\n'] ++ after.toList)]
  exact (template _ (by decide)).append (inner.append ((template _ (by decide)).append
    ((template _ (by decide)).append outer)))

theorem sendRequest_text (c : TelegramChannel) (p : PendingDelivery) :
    (c.sendRequest p).payload.get "text" = .str (messageText p.title p.body) := rfl

/-- The text that is posted holds one pair of tags and no other angle bracket, each ampersand in it begins a
reference, and what stands between the tags and behind them is read as the title and the body, in whichever way
the text is taken apart. So the texts of two deliveries are the same exactly if title and body are. -/
theorem posted_text_faithful (c : TelegramChannel) (p : PendingDelivery) :
    ∃ text : String, (∀ w, (c.send p w).2 = w.after (c.sendRequest p)) ∧
      (c.sendRequest p).payload.get "text" = .str text ∧
      (∃ inside after : String, text = "<b>" ++ inside ++ "</b>\n" ++ after ∧
        (∀ x ∈ inside.toList ++ after.toList, x ≠ '<' ∧ x ≠ '>') ∧
        unescapeHtml inside = p.title ∧ unescapeHtml after = p.body ∧
        ∀ inside' after', text = "<b>" ++ inside' ++ "</b>\n" ++ after' → inside' = inside ∧ after' = after) ∧
      (∀ before after, text.toList = before ++ '&' :: after →
        ∃ e ∈ Text.entities, e.toList <+: '&' :: after) ∧
      ∀ (c' : TelegramChannel) (p' : PendingDelivery),
        (c'.sendRequest p').payload.get "text" = .str text ↔ p'.title = p.title ∧ p'.body = p.body := by
  obtain ⟨plain, inner⟩ := escapeHtml_plain p.title
  obtain ⟨plain', outer⟩ := escapeHtml_plain p.body
  have angles : ∀ x ∈ (escapeHtml p.title).toList ++ (escapeHtml p.body).toList, x ≠ '<' ∧ x ≠ '>' :=
    List.forall_mem_append.2 ⟨plain, plain'⟩
  have apart {inside' after' : String}
      (same : messageText p.title p.body = "<b>" ++ inside' ++ "</b>\n" ++ after') :
      inside' = escapeHtml p.title ∧ after' = escapeHtml p.body := by
    obtain ⟨front, back⟩ := tagged_inj (fun x hx => (angles x hx).1) same
    exact ⟨front.symm, back.symm⟩
  refine ⟨messageText p.title p.body, c.send_wire p, rfl, ⟨escapeHtml p.title, escapeHtml p.body, rfl, angles,
    unescapeHtml_escapeHtml _, unescapeHtml_escapeHtml _, fun inside' after' => apart⟩,
    tagged_referring inner outer, fun c' p' => ⟨fun same => ?_, ?_⟩⟩
  · obtain ⟨title, body⟩ := apart (Datum.str.inj ((c'.sendRequest_text p').symm.trans same)).symm
    have title := congrArg unescapeHtml title
    have body := congrArg unescapeHtml body
    rw [unescapeHtml_escapeHtml, unescapeHtml_escapeHtml] at title body
    exact ⟨title, body⟩
  · rintro ⟨title, body⟩
    rw [sendRequest_text, title, body]

example : messageText "</b>\n&lt;" "" = "<b>&lt;/b&gt;\n&amp;lt;</b>\n" := by decide +kernel

end TelegramChannel

end ChoreReminder
