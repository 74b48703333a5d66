import Mathlib.Data.List.TakeWhile
import ChoreReminder.Text.Numeral

/-! Numerals of integers. A numeral has digits, with single underscores between them, after a sign that may be
left out, and blanks may stand around it. The reader accepts these texts and no others, and reads the number
that the digits denote. Blanks that are taken off beforehand make no difference to it. -/

namespace ChoreReminder.Text

/-! ### The form of a numeral -/

inductive Digits : List Char → List Nat → Prop where
  | last {c : Char} {d : Nat} (digit : digit? c = some d) : Digits [c] [d]
  | next {c : Char} {d : Nat} {cs : List Char} {ds : List Nat} (digit : digit? c = some d)
      (rest : Digits cs ds) : Digits (c :: cs) (d :: ds)
  | spaced {c : Char} {d : Nat} {cs : List Char} {ds : List Nat} (digit : digit? c = some d)
      (rest : Digits cs ds) : Digits (c :: '_' :: cs) (d :: ds)

inductive Sign : List Char → Bool → Prop where
  | absent : Sign [] false
  | plus : Sign ['+'] false
  | minus : Sign ['-'] true

inductive Numeral : List Char → Int → Prop where
  | intro {sign body : List Char} {negative : Bool} {ds : List Nat} (sign' : Sign sign negative)
      (digits : Digits body ds) (short : ds.length ≤ maxDigits) :
      Numeral (sign ++ body) (signed negative (ofDigits 10 ds))

/-- The text is a numeral of the integer with blanks of a kind around it. -/
def Denotes (blank : Char → Bool) (cs : List Char) (n : Int) : Prop :=
  ∃ before numeral after, cs = before ++ (numeral ++ after) ∧ (∀ c ∈ before, blank c = true) ∧
    (∀ c ∈ after, blank c = true) ∧ Numeral numeral n

theorem Denotes.mono {blank blank' : Char → Bool} (wider : ∀ c, blank c = true → blank' c = true)
    {cs : List Char} {n : Int} (h : Denotes blank cs n) : Denotes blank' cs n := by
  obtain ⟨before, numeral, after, rfl, front, back, denotes⟩ := h
  exact ⟨before, numeral, after, rfl, fun c hc => wider c (front c hc), fun c hc => wider c (back c hc),
    denotes⟩

/-! ### Characters of numerals and blanks -/

theorem digit?_code {c : Char} {d : Nat} (h : digit? c = some d) :
    ∃ first ∈ digitZeros, first ≤ c.toNat ∧ c.toNat < first + 10 := by
  unfold digit? at h
  split at h
  · next e ascii =>
    unfold asciiDigit? at ascii
    split at ascii
    · next range =>
      have low : 48 ≤ c.toNat := range.1
      have high : c.toNat ≤ 57 := range.2
      exact ⟨0x30, by decide, low, by omega⟩
    · cases ascii
  · obtain ⟨first, found, -⟩ := Option.map_eq_some_iff.1 h
    exact ⟨first, List.mem_of_find?_eq_some found, by simpa using List.find?_some found⟩

def blankRuns : List (Nat × Nat) := [
  (9, 13), (0x1c, 0x20), (0x85, 0x85), (0xa0, 0xa0), (0x1680, 0x1680), (0x2000, 0x200a),
  (0x2028, 0x2029), (0x202f, 0x202f), (0x205f, 0x205f), (0x3000, 0x3000)]

theorem isBlank_run {c : Char} (h : isBlank c = true) :
    ∃ run ∈ blankRuns, run.1 ≤ c.toNat ∧ c.toNat ≤ run.2 := by
  simp only [isBlank, isSpace, Bool.or_eq_true, Bool.and_eq_true, decide_eq_true_eq, beq_iff_eq] at h
  simp only [blankRuns, List.mem_cons, List.not_mem_nil, or_false, exists_eq_or_imp, exists_eq_left]
  omega

theorem isBlank_of_isSpace (c : Char) (h : isSpace c = true) : isBlank c = true := by
  simp [isBlank, h]

theorem not_isBlank_of_digit {c : Char} {d : Nat} (h : digit? c = some d) : isBlank c = false := by
  have apart : ∀ first ∈ digitZeros, ∀ run ∈ blankRuns, first + 10 ≤ run.1 ∨ run.2 < first := by decide
  rw [← Bool.not_eq_true]
  intro blank
  obtain ⟨first, digits, low, high⟩ := digit?_code h
  obtain ⟨run, listed, low', high'⟩ := isBlank_run blank
  have separate := apart first digits run listed
  omega

def Apart (blank : Char → Bool) : Prop :=
  blank '+' = false ∧ blank '-' = false ∧ ∀ c d, digit? c = some d → blank c = false

theorem apart_isBlank : Apart isBlank := ⟨by decide, by decide, fun _ _ => not_isBlank_of_digit⟩

theorem apart_isSpace : Apart isSpace := by
  refine ⟨by decide, by decide, fun c d digit => ?_⟩
  have other := not_isBlank_of_digit digit
  simp only [isBlank, Bool.or_eq_false_iff] at other
  exact other.1

/-! ### Taking blanks off -/

variable {blank : Char → Bool} {cs ds : List Char} {n : Int}

theorem trimBy_between {before middle after : List Char} (front : ∀ c ∈ before, blank c = true)
    (back : ∀ c ∈ after, blank c = true) {first last : Char} {inner inner' : List Char}
    (head : middle = first :: inner) (end' : middle = inner' ++ [last]) (first' : blank first = false)
    (last' : blank last = false) : trimBy blank (before ++ (middle ++ after)) = middle := by
  have opened : (before ++ (middle ++ after)).dropWhile blank = middle ++ after := by
    rw [List.dropWhile_append_of_pos front, head, List.cons_append,
      List.dropWhile_cons_of_neg (by simp [first'])]
  have closed : (after.reverse ++ middle.reverse).dropWhile blank = middle.reverse := by
    rw [List.dropWhile_append_of_pos fun c hc => back c (List.mem_reverse.1 hc), end',
      List.reverse_append, List.reverse_singleton, List.singleton_append,
      List.dropWhile_cons_of_neg (by simp [last'])]
  rw [trimBy, opened, List.reverse_append, closed, List.reverse_reverse]

theorem trimBy_parts (blank : Char → Bool) (cs : List Char) :
    ∃ before after, cs = before ++ (trimBy blank cs ++ after) ∧ (∀ c ∈ before, blank c = true) ∧
      ∀ c ∈ after, blank c = true := by
  let opened := cs.dropWhile blank
  have whole : cs = cs.takeWhile blank ++ opened := (List.takeWhile_append_dropWhile ..).symm
  have rest : opened = trimBy blank cs ++ (opened.reverse.takeWhile blank).reverse := by
    have parts := congrArg List.reverse
      (List.takeWhile_append_dropWhile (p := blank) (l := opened.reverse))
    rw [List.reverse_append, List.reverse_reverse] at parts
    exact parts.symm
  refine ⟨cs.takeWhile blank, (opened.reverse.takeWhile blank).reverse, ?_, ?_, ?_⟩
  · rw [← rest]
    exact whole
  · exact fun c hc => List.mem_takeWhile_imp hc
  · exact fun c hc => List.mem_takeWhile_imp (List.mem_reverse.1 hc)

theorem Digits.ends {body : List Char} {ds : List Nat} (h : Digits body ds) :
    (∃ c d rest, body = c :: rest ∧ digit? c = some d) ∧
      ∃ c d front, body = front ++ [c] ∧ digit? c = some d := by
  induction h with
  | @last c d digit => exact ⟨⟨c, d, [], rfl, digit⟩, c, d, [], rfl, digit⟩
  | @next c d cs ds digit rest ih =>
    obtain ⟨-, e, d', front, rfl, last⟩ := ih
    exact ⟨⟨c, d, _, rfl, digit⟩, e, d', c :: front, rfl, last⟩
  | @spaced c d cs ds digit rest ih =>
    obtain ⟨-, e, d', front, rfl, last⟩ := ih
    exact ⟨⟨c, d, _, rfl, digit⟩, e, d', c :: '_' :: front, rfl, last⟩

theorem Numeral.trimBy_eq (apart : Apart blank) {numeral : List Char} (h : Numeral numeral n)
    {before after : List Char} (front : ∀ c ∈ before, blank c = true)
    (back : ∀ c ∈ after, blank c = true) : trimBy blank (before ++ (numeral ++ after)) = numeral := by
  obtain ⟨plus, minus, digits'⟩ := apart
  cases h with
  | @intro sign body negative ds sign' digits short =>
    obtain ⟨⟨c, d, rest, open', first⟩, e, d', front', close, last⟩ := digits.ends
    have end' : sign ++ body = (sign ++ front') ++ [e] := by rw [close, List.append_assoc]
    cases sign' with
    | absent => exact trimBy_between front back open' end' (digits' c d first) (digits' e d' last)
    | plus => exact trimBy_between front back rfl end' plus (digits' e d' last)
    | minus => exact trimBy_between front back rfl end' minus (digits' e d' last)

theorem denotes_iff (apart : Apart blank) : Denotes blank cs n ↔ Numeral (trimBy blank cs) n := by
  constructor
  · rintro ⟨before, numeral, after, rfl, front, back, denotes⟩
    rwa [denotes.trimBy_eq apart front back]
  · intro denotes
    obtain ⟨before, after, whole, front, back⟩ := trimBy_parts blank cs
    exact ⟨before, _, after, whole, front, back, denotes⟩

/-! ### What is read -/

theorem digitRun?_eq_some {ds : List Nat} (cs : List Char) :
    (digitRun? digit? true cs = some ds ↔ Digits cs ds) ∧
      (digitRun? digit? false cs = some ds ↔
        cs = [] ∧ ds = [] ∨ Digits cs ds ∨ ∃ rest, cs = '_' :: rest ∧ Digits rest ds) := by
  have score : digit? '_' = none := by decide
  have unstarted (rest : List Char) (ds : List Nat) : ¬ Digits ('_' :: rest) ds := by
    intro h
    cases h <;> simp_all
  induction cs generalizing ds with
  | nil =>
    refine ⟨iff_of_false nofun nofun, ?_⟩
    have empty : ¬ Digits [] ds := nofun
    simp [digitRun?, empty, eq_comm]
  | cons c rest ih =>
    have read : digitRun? digit? true (c :: rest) = some ds ↔ Digits (c :: rest) ds := by
      unfold digitRun?
      split
      · next same =>
        rw [same]
        exact iff_of_false nofun (unstarted rest ds)
      · next other =>
        simp only [Option.bind_eq_bind, Option.bind_eq_some_iff, Option.pure_def, Option.some.injEq]
        constructor
        · rintro ⟨d, digit, ds', tail, rfl⟩
          obtain ⟨rfl, rfl⟩ | digits | ⟨more, rfl, digits⟩ := ih.2.1 tail
          · exact .last digit
          · exact .next digit digits
          · exact .spaced digit digits
        · intro digits
          cases digits with
          | last digit => exact ⟨_, digit, [], rfl, rfl⟩
          | next digit digits => exact ⟨_, digit, _, ih.2.2 (.inr (.inl digits)), rfl⟩
          | spaced digit digits => exact ⟨_, digit, _, ih.2.2 (.inr (.inr ⟨_, rfl, digits⟩)), rfl⟩
    refine ⟨read, ?_⟩
    by_cases same : c = '_'
    · subst same
      simpa [digitRun?, unstarted] using ih.1
    · have after : digitRun? digit? false (c :: rest) = digitRun? digit? true (c :: rest) := by
        simp [digitRun?, same]
      rw [after, read]
      simp [same]

theorem splitSign_sign (cs : List Char) :
    ∃ sign, cs = sign ++ (splitSign cs).2 ∧ Sign sign (splitSign cs).1 := by
  unfold splitSign
  split
  · exact ⟨['-'], rfl, .minus⟩
  · exact ⟨['+'], rfl, .plus⟩
  · exact ⟨[], rfl, .absent⟩

theorem splitSign_numeral {sign body : List Char} {negative : Bool} {ds : List Nat}
    (sign' : Sign sign negative) (digits : Digits body ds) :
    splitSign (sign ++ body) = (negative, body) := by
  cases sign' with
  | plus => rfl
  | minus => rfl
  | absent =>
    have plus : digit? '+' = none := by decide
    have minus : digit? '-' = none := by decide
    obtain ⟨⟨c, d, rest, rfl, digit⟩, -⟩ := digits.ends
    rw [List.nil_append]
    unfold splitSign
    split
    · next same => simp_all
    · next same => simp_all
    · rfl

theorem readInt?_eq_some_iff : readInt? cs = some n ↔ Numeral (trimBy isSpace cs) n := by
  unfold readInt?
  generalize trimBy isSpace cs = text
  constructor
  · intro read
    obtain ⟨sign, whole, sign'⟩ := splitSign_sign text
    simp only [Option.bind_eq_bind, Option.bind_eq_some_iff] at read
    obtain ⟨ds, run, read⟩ := read
    split at read
    · next short =>
      obtain rfl := Option.some.inj read
      have denotes := Numeral.intro sign' ((digitRun?_eq_some _).1.1 run) short
      rwa [← whole] at denotes
    · cases read
  · intro numeral
    cases numeral with
    | intro sign' digits short =>
      simp only [splitSign_numeral sign' digits, (digitRun?_eq_some _).1.2 digits, Option.bind_eq_bind,
        Option.bind_some, if_pos short]

theorem readInt?_denotes : readInt? cs = some n ↔ Denotes isSpace cs n :=
  readInt?_eq_some_iff.trans (denotes_iff apart_isSpace).symm

theorem readInt?_trimBy_denotes : readInt? (trimBy isBlank cs) = some n ↔ Denotes isBlank cs n := by
  rw [readInt?_denotes]
  constructor
  · rintro ⟨before, numeral, after, inside, front, back, denotes⟩
    have blankFront : ∀ c ∈ before, isBlank c = true := fun c hc => isBlank_of_isSpace c (front c hc)
    have blankBack : ∀ c ∈ after, isBlank c = true := fun c hc => isBlank_of_isSpace c (back c hc)
    obtain ⟨before', after', whole, front', back'⟩ := trimBy_parts isBlank cs
    refine ⟨before' ++ before, numeral, after ++ after', ?_, ?_, ?_, denotes⟩
    · rw [inside] at whole
      simpa using whole
    · exact fun c hc => (List.mem_append.1 hc).elim (front' c) (blankFront c)
    · exact fun c hc => (List.mem_append.1 hc).elim (blankBack c) (back' c)
  · intro denotes
    exact ⟨[], _, [], by simp, by simp, by simp, (denotes_iff apart_isBlank).1 denotes⟩

end ChoreReminder.Text
