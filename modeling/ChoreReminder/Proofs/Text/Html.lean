import ChoreReminder.Proofs.Text.Uuid
import ChoreReminder.Text.Html
import ChoreReminder.Text.Numeral
import ChoreReminder.Text.Quoted

/-! Escaped text and how a reader of HTML takes it. A reference begins with an ampersand and ends with a
semicolon; between them stands a name or the number of a character. An escaped text holds no angle bracket,
each of its ampersands begins a reference that the escaper writes, and the reader gets the text back. -/

namespace ChoreReminder.Text

def entities : List String := ["&amp;", "&lt;", "&gt;", "&quot;", "&#x27;"]

def reference? : List Char → Option Char
  | ['a', 'm', 'p'] => some '&'
  | ['l', 't'] => some '<'
  | ['g', 't'] => some '>'
  | ['q', 'u', 'o', 't'] => some doubleQuote
  | '#' :: 'x' :: ds => if ds.isEmpty then none else (ds.mapM asciiHex?).map (Char.ofNat ∘ ofDigits 16)
  | '#' :: ds => (readNat? ds).map Char.ofNat
  | _ => none

/-- Reads references. Within one, `name?` holds what came after its ampersand, last character first; one that
does not end, or stands for nothing, is left as it is. -/
def readReferences (name? : Option (List Char)) : List Char → List Char
  | [] => (name?.map fun name => '&' :: name.reverse).getD []
  | c :: rest =>
    match name? with
    | none => if c = '&' then readReferences (some []) rest else c :: readReferences none rest
    | some name =>
      if c = ';' then
        ((reference? name.reverse).map ([·])).getD ('&' :: name.reverse ++ [';']) ++ readReferences none rest
      else if c = '&' then '&' :: name.reverse ++ readReferences (some []) rest
      else readReferences (some (c :: name)) rest

def unescapeHtml (s : String) : String := String.ofList (readReferences none s.toList)

/-! ### One character -/

structure WrittenAs (c : Char) (name : List Char) : Prop where
  written : htmlChar c = '&' :: name ++ [';']
  listed : String.ofList (htmlChar c) ∈ entities
  known : reference? name = some c
  free : ∀ x ∈ name, x ≠ '&' ∧ x ≠ ';' ∧ x ≠ '<' ∧ x ≠ '>'

theorem WrittenAs.of_checked {c : Char} (name : List Char) (written : htmlChar c = '&' :: name ++ [';'] ∧
    String.ofList (htmlChar c) ∈ entities ∧ reference? name = some c)
    (free : (name.all fun x => x ≠ '&' ∧ x ≠ ';' ∧ x ≠ '<' ∧ x ≠ '>') = true) : WrittenAs c name :=
  ⟨written.1, written.2.1, written.2.2, forall_mem_of_all free⟩

theorem htmlChar_cases (c : Char) :
    (htmlChar c = [c] ∧ c ≠ '&' ∧ c ≠ '<' ∧ c ≠ '>') ∨ ∃ name, WrittenAs c name := by
  by_cases amp : c = '&'
  · subst amp
    exact .inr ⟨_, .of_checked "amp".toList (by decide +kernel) (by decide +kernel)⟩
  by_cases lt : c = '<'
  · subst lt
    exact .inr ⟨_, .of_checked "lt".toList (by decide +kernel) (by decide +kernel)⟩
  by_cases gt : c = '>'
  · subst gt
    exact .inr ⟨_, .of_checked "gt".toList (by decide +kernel) (by decide +kernel)⟩
  by_cases quot : c.toNat = 34
  · obtain rfl : c = doubleQuote := Char.toNat_inj.1 quot
    exact .inr ⟨_, .of_checked "quot".toList (by decide +kernel) (by decide +kernel)⟩
  by_cases apos : c.toNat = 39
  · obtain rfl : c = Char.ofNat 39 := Char.toNat_inj.1 apos
    exact .inr ⟨_, .of_checked "#x27".toList (by decide +kernel) (by decide +kernel)⟩
  · exact .inl (by simp [htmlChar, amp, lt, gt, quot, apos])

theorem not_angle_of_mem_htmlChar {c x : Char} (member : x ∈ htmlChar c) : x ≠ '<' ∧ x ≠ '>' := by
  obtain ⟨plain, -, lt, gt⟩ | ⟨name, written, -, -, free⟩ := htmlChar_cases c
  · rw [plain, List.mem_singleton] at member
    exact member ▸ ⟨lt, gt⟩
  · rw [written, List.cons_append, List.mem_cons, List.mem_append, List.mem_singleton] at member
    obtain rfl | inside | rfl := member
    · decide
    · exact (free x inside).2.2
    · decide

/-! ### Every ampersand begins a reference -/

def Referring (cs : List Char) : Prop :=
  ∀ before after, cs = before ++ '&' :: after → ∃ e ∈ entities, e.toList <+: '&' :: after

variable {cs ds : List Char}

theorem Referring.of_free (free : '&' ∉ cs) : Referring cs := by
  rintro before after rfl
  exact absurd (List.mem_append_right before List.mem_cons_self) free

theorem Referring.append (first : Referring cs) (second : Referring ds) : Referring (cs ++ ds) := by
  intro before after same
  rcases List.append_eq_append_iff.1 same with ⟨gap, rfl, rest⟩ | ⟨inside, rfl, rest⟩
  · exact second gap after rest
  · cases inside with
    | nil => exact second [] after rest.symm
    | cons c inside =>
      obtain ⟨rfl, rfl⟩ := List.cons.inj rest
      obtain ⟨e, known, begins⟩ := first before inside rfl
      exact ⟨e, known, begins.trans (List.prefix_append ('&' :: inside) ds)⟩

theorem htmlChar_referring (c : Char) : Referring (htmlChar c) := by
  obtain ⟨plain, amp, -⟩ | ⟨name, written, known, -, free⟩ := htmlChar_cases c
  · rw [plain]
    exact .of_free (by simpa using amp.symm)
  · intro before after same
    cases before with
    | nil => exact ⟨_, known, by rw [String.toList_ofList, same]; exact List.prefix_rfl⟩
    | cons d before =>
      -- Behind the first character there is no ampersand.
      rw [written] at same
      have tail : name ++ [';'] = before ++ '&' :: after := (List.cons.inj same).2
      have later : '&' ∈ name ++ [';'] := tail ▸ List.mem_append_right before List.mem_cons_self
      rcases List.mem_append.1 later with inside | last
      · exact absurd rfl (free _ inside).1
      · exact absurd last (by decide)

theorem escapeHtml_plain (s : String) :
    (∀ x ∈ (escapeHtml s).toList, x ≠ '<' ∧ x ≠ '>') ∧ Referring (escapeHtml s).toList := by
  rw [escapeHtml, String.toList_ofList]
  constructor
  · intro x member
    obtain ⟨c, -, written⟩ := List.mem_flatMap.1 member
    exact not_angle_of_mem_htmlChar written
  · induction s.toList with
    | nil => exact .of_free List.not_mem_nil
    | cons c rest ih => exact (htmlChar_referring c).append ih

/-! ### What is read -/

theorem readReferences_name {name read : List Char} (free : ∀ x ∈ name, x ≠ '&' ∧ x ≠ ';') {d : Char}
    (known : reference? (read.reverse ++ name) = some d) (rest : List Char) :
    readReferences (some read) (name ++ ';' :: rest) = d :: readReferences none rest := by
  induction name generalizing read with
  | nil =>
    rw [List.append_nil] at known
    simp [readReferences, known]
  | cons c name ih =>
    obtain ⟨⟨amp, semicolon⟩, free⟩ := List.forall_mem_cons.1 free
    simp only [List.cons_append, readReferences, if_neg amp, if_neg semicolon]
    exact ih free (by simpa using known)

theorem readReferences_htmlChar (c : Char) (rest : List Char) :
    readReferences none (htmlChar c ++ rest) = c :: readReferences none rest := by
  obtain ⟨plain, amp, -⟩ | ⟨name, written, -, known, free⟩ := htmlChar_cases c
  · simp [plain, readReferences, amp]
  · have front : htmlChar c ++ rest = '&' :: (name ++ ';' :: rest) := by simp [written]
    rw [front, readReferences, if_pos rfl]
    have begun : reference? ([].reverse ++ name) = some c := known
    exact readReferences_name (fun x hx => ⟨(free x hx).1, (free x hx).2.1⟩) begun rest

theorem unescapeHtml_escapeHtml (s : String) : unescapeHtml (escapeHtml s) = s := by
  have read (cs : List Char) : readReferences none (cs.flatMap htmlChar) = cs := by
    induction cs with
    | nil => rfl
    | cons c rest ih => rw [List.flatMap_cons, readReferences_htmlChar, ih]
  rw [unescapeHtml, escapeHtml, String.toList_ofList, read, String.ofList_toList]

end ChoreReminder.Text
