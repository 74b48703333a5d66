import ChoreReminder.Proofs.Datum.Members
import ChoreReminder.Proofs.Outcome
import ChoreReminder.Yaml.Document

/-! Names in YAML documents. A mapping is read into an object whose names are distinct, whatever pairs it
repeats and whatever mappings it takes in. -/

namespace ChoreReminder.Yaml

open Datum (Distinct)

theorem Entry.members_distinct {es : List Entry} (h : ∀ e ∈ es, Distinct e.value) :
    Distinct (.obj (Entry.members es)) := by
  have more (es : List Entry) (ms : List (String × Datum)) (old : Distinct (.obj ms))
      (h : ∀ e ∈ es, Distinct e.value) :
      Distinct (.obj (es.foldl (fun ms e => e.name.elim ms fun name => Datum.setMember name e.value ms) ms)) := by
    induction es generalizing ms with
    | nil => exact old
    | cons e rest ih =>
      obtain ⟨first, rest'⟩ := List.forall_mem_cons.1 h
      obtain ⟨name, d⟩ := e
      cases name with
      | none => exact ih ms old rest'
      | some name => exact ih _ (old.setMember name first) rest'
  exact more es [] .empty h

theorem mapped_distinct {α : Type} {f : α → Datum} (plain : ∀ a ms, f a ≠ .obj ms) {x : Except Fault α}
    {d : Datum} (h : x.map f = .ok d) : Distinct d := by
  cases x with
  | error e => cases h
  | ok a =>
    obtain rfl := Except.ok.inj h
    exact .other (plain a)

theorem readText_distinct {kind : Kind} {text : String} {d : Datum} (h : readText kind text = .ok d) :
    Distinct d := by
  unfold readText at h
  split at h
  case h_3 | h_4 | h_5 | h_6 => exact mapped_distinct (fun _ _ => Datum.noConfusion) h
  case h_7 =>
    split at h
    · obtain rfl := Except.ok.inj h
      exact .other fun _ => Datum.noConfusion
    · cases h
  case h_8 => cases h
  all_goals
    obtain rfl := Except.ok.inj h
    exact .other fun _ => Datum.noConfusion

namespace Node

mutual

theorem value_distinct : (n : Node) → {d : Datum} → n.value = .ok d → Distinct d
  | .scalar tag isOpen text, d, h => by
    rw [value] at h
    exact readText_distinct h
  | .sequence tag items, d, h => by
    rw [value] at h
    obtain ⟨ds, -, h⟩ := bind_eq_ok.1 h
    refine .other fun ms same => ?_
    subst same
    split at h
    · cases h
    · split at h <;> cases h
    · cases h
  | .mapping tag pairs, d, h => by
    rw [value] at h
    split at h
    · obtain ⟨⟨merged, own⟩, read, h⟩ := bind_eq_ok.1 h
      obtain rfl := pure_eq_ok.1 h
      exact Entry.members_distinct (List.forall_mem_append.2 (entries_distinct pairs read))
    · obtain ⟨-, -, h⟩ := bind_eq_ok.1 h
      obtain rfl := pure_eq_ok.1 h
      exact .other fun _ => Datum.noConfusion
    · split at h
      · exact readText_distinct h
      · cases h

theorem entries_distinct : (pairs : List (Node × Node)) → {merged own : List Entry} →
    entries pairs = .ok (merged, own) → (∀ e ∈ merged, Distinct e.value) ∧ ∀ e ∈ own, Distinct e.value
  | [], merged, own, h => by
    rw [entries] at h
    cases h
    exact ⟨fun _ none => absurd none List.not_mem_nil, fun _ none => absurd none List.not_mem_nil⟩
  | (key, n) :: rest, merged, own, h => by
    rw [entries] at h
    split at h
    · have taking (taken : List Entry) (first : ∀ e ∈ taken, Distinct e.value)
          (h : (do let (merged, own) ← entries rest; pure (taken ++ merged, own)) = .ok (merged, own)) :
          (∀ e ∈ merged, Distinct e.value) ∧ ∀ e ∈ own, Distinct e.value := by
        obtain ⟨⟨merged', own'⟩, read, h⟩ := bind_eq_ok.1 h
        cases h
        obtain ⟨old, new⟩ := entries_distinct rest read
        exact ⟨List.forall_mem_append.2 ⟨first, old⟩, new⟩
      dsimp only at h
      cases n with
      | mapping tag inner =>
        obtain ⟨⟨merged', own'⟩, read, h⟩ := bind_eq_ok.1 h
        exact taking _ (List.forall_mem_append.2 (entries_distinct inner read)) h
      | sequence tag items =>
        obtain ⟨es, read, h⟩ := bind_eq_ok.1 h
        exact taking _ (takenFrom_distinct items read) h
      | scalar => cases h
    · have naming (name : Option String)
          (h : (do
            let d ← n.value
            let (merged, own) ← entries rest
            pure (merged, Entry.mk name d :: own)) = .ok (merged, own)) :
          (∀ e ∈ merged, Distinct e.value) ∧ ∀ e ∈ own, Distinct e.value := by
        obtain ⟨d, first, h⟩ := bind_eq_ok.1 h
        obtain ⟨⟨merged', own'⟩, read, h⟩ := bind_eq_ok.1 h
        cases h
        obtain ⟨old, new⟩ := entries_distinct rest read
        exact ⟨old, List.forall_mem_cons.2 ⟨value_distinct n first, new⟩⟩
      dsimp only at h
      split at h
      · exact naming _ h
      · cases h
      · obtain ⟨k, -, h⟩ := bind_eq_ok.1 h
        split at h
        · exact naming _ h
        · cases h
        · cases h
        · exact naming _ h

theorem takenFrom_distinct : (items : List Node) → {es : List Entry} → takenFrom items = .ok es →
    ∀ e ∈ es, Distinct e.value
  | [], es, h => by
    rw [takenFrom] at h
    cases h
    exact fun _ none => absurd none List.not_mem_nil
  | .mapping tag pairs :: rest, es, h => by
    rw [takenFrom] at h
    obtain ⟨⟨merged, own⟩, read, h⟩ := bind_eq_ok.1 h
    obtain ⟨others, more, h⟩ := bind_eq_ok.1 h
    cases h
    exact List.forall_mem_append.2
      ⟨takenFrom_distinct rest more, List.forall_mem_append.2 (entries_distinct pairs read)⟩
  | .scalar .. :: rest, es, h => by simp [takenFrom] at h
  | .sequence .. :: rest, es, h => by simp [takenFrom] at h

end

end Node

theorem Document.read_distinct {cs : List Char} {doc : Document} (h : Document.read cs = .ok doc) :
    Distinct doc.value := by
  unfold Document.read at h
  obtain ⟨ts, -, h⟩ := bind_eq_ok.1 h
  obtain ⟨n, -, h⟩ := bind_eq_ok.1 h
  cases n with
  | none =>
    obtain rfl := pure_eq_ok.1 h
    exact .other fun _ => Datum.noConfusion
  | some n =>
    obtain ⟨d, read, h⟩ := bind_eq_ok.1 (show Document.ofNode n = .ok doc from h)
    have distinct := n.value_distinct read
    split at h
    · split at h
      · obtain ⟨⟨merged, own⟩, -, h⟩ := bind_eq_ok.1 h
        obtain rfl := pure_eq_ok.1 h
        exact distinct
      · obtain rfl := pure_eq_ok.1 h
        exact distinct
    · obtain rfl := pure_eq_ok.1 h
      exact distinct

end ChoreReminder.Yaml
