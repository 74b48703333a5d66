import Mathlib.Data.List.Induction
import Mathlib.Tactic.IntervalCases
import ChoreReminder.Proofs.Text.Padded
import ChoreReminder.Text.Uuid

/-! Identifiers in their usual form: 32 lower-case hexadecimal digits in groups of 8, 4, 4, 4 and 12. The
lenient reader takes such a text for the number of its digits, and that number is written as the same text
again. -/

namespace ChoreReminder.Text

def lowerHex : List Char := "0123456789abcdef".toList

def hyphenated (ds : List Char) : List Char :=
  ds.take 8 ++ '-' :: (ds.drop 8).take 4 ++ '-' :: (ds.drop 12).take 4
    ++ '-' :: (ds.drop 16).take 4 ++ '-' :: ds.drop 20

def IsUuid (s : String) : Prop :=
  ∃ ds : List Char, ds.length = uuidLength ∧ (∀ c ∈ ds, c ∈ lowerHex) ∧ s.toList = hyphenated ds

variable {cs ds : List Char}

-- Written as a bounded quantifier over characters, the same fact would be looked up for all of them.
theorem forall_mem_of_all {P : Char → Prop} [DecidablePred P] (each : (cs.all fun c => P c) = true) :
    ∀ c ∈ cs, P c :=
  fun c hc => of_decide_eq_true (List.all_eq_true.1 each c hc)

theorem mem_lowerHex_of_isDigit {c : Char} (h : c.isDigit = true) : c ∈ lowerHex := by
  obtain ⟨low, high⟩ := digit_range h
  rw [← Char.ofNat_toNat c]
  generalize c.toNat = n at low high
  interval_cases n <;> decide

/-! ### The characters that carry the number -/

theorem mem_hyphenated {c : Char} (h : c ∈ hyphenated ds) : c = '-' ∨ c ∈ ds := by
  simp only [hyphenated, List.mem_append, List.mem_cons] at h
  rcases h with (((h | h | h) | h | h) | h | h) | h | h
  all_goals first
    | exact .inl h
    | exact .inr (List.mem_of_mem_take h)
    | exact .inr (List.mem_of_mem_drop h)
    | exact .inr (List.mem_of_mem_drop (List.mem_of_mem_take h))

theorem filter_hyphenated (free : ∀ c ∈ ds, c ≠ '-') : (hyphenated ds).filter (· != '-') = ds := by
  have kept {part : List Char} (sub : part ⊆ ds) : part.filter (· != '-') = part :=
    List.filter_eq_self.2 fun c hc => by simpa using free c (sub hc)
  have group (n k : Nat) : ((ds.drop n).take k).filter (· != '-') = (ds.drop n).take k :=
    kept fun c hc => List.mem_of_mem_drop (List.mem_of_mem_take hc)
  have next (n k : Nat) : (ds.drop n).take k ++ ds.drop (n + k) = ds.drop n := by
    rw [← List.drop_drop, List.take_append_drop]
  simp only [hyphenated, List.filter_append, List.filter_cons, bne_self_eq_false, Bool.false_eq_true,
    if_false, group, kept fun c hc => List.mem_of_mem_take hc, kept fun c hc => List.mem_of_mem_drop hc,
    List.append_assoc]
  rw [next 16 4, next 12 4, next 8 4, List.take_append_drop]

theorem without_of_head {word : List Char} (h : word ≠ []) (absent : word.head h ∉ cs) :
    without word h cs = cs := by
  induction cs with
  | nil => rw [without]
  | cons c rest ih =>
    obtain ⟨other, absent'⟩ := not_or.1 (mt List.mem_cons.2 absent)
    have front : word.isPrefixOf (c :: rest) = false := by
      cases word with
      | nil => exact absurd rfl h
      | cons d more => simp [List.isPrefixOf, show d ≠ c from other]
    rw [without, front, if_neg (by decide), ih absent']

theorem trimBy_of_free {p : Char → Bool} (free : ∀ c ∈ cs, p c = false) : trimBy p cs = cs := by
  have stays {cs : List Char} (free : ∀ c ∈ cs, p c = false) : cs.dropWhile p = cs := by
    cases cs with
    | nil => rfl
    | cons c rest => exact List.dropWhile_cons_of_neg (by simp [free c List.mem_cons_self])
  rw [trimBy, stays free, stays fun c hc => free c (List.mem_reverse.1 hc), List.reverse_reverse]

theorem uuidDigits_hyphenated (digits : ∀ c ∈ ds, c ∈ lowerHex) : uuidDigits (hyphenated ds) = ds := by
  have plain : ∀ c ∈ '-' :: lowerHex, c ≠ 'u' ∧ isBrace c = false :=
    forall_mem_of_all (by decide)
  have apart : ∀ c ∈ lowerHex, c ≠ '-' := forall_mem_of_all (by decide)
  have among : ∀ c ∈ hyphenated ds, c ∈ '-' :: lowerHex := fun c hc =>
    List.mem_cons.2 ((mem_hyphenated hc).imp_right (digits c))
  have free : 'u' ∉ hyphenated ds := fun h => (plain _ (among _ h)).1 rfl
  have urn : without "urn:".toList (by decide) (hyphenated ds) = hyphenated ds := without_of_head _ free
  have uuid : without "uuid:".toList (by decide) (hyphenated ds) = hyphenated ds := without_of_head _ free
  simp only [uuidDigits]
  rw [urn, uuid, trimBy_of_free fun c hc => (plain c (among c hc)).2,
    filter_hyphenated fun c hc => apart c (digits c hc)]

/-! ### The number -/

theorem lowerHex_digit {c : Char} (h : c ∈ lowerHex) :
    ∃ v, hexDigit? c = some v ∧ v < 16 ∧ digitChar v = c := by
  have each : ∀ c ∈ lowerHex, ∃ v ∈ List.range 16, hexDigit? c = some v ∧ digitChar v = c :=
    forall_mem_of_all (by decide)
  obtain ⟨v, small, value, same⟩ := each c h
  exact ⟨v, value, List.mem_range.1 small, same⟩

theorem digitRun?_lowerHex (fresh : Bool) (digits : ∀ c ∈ cs, c ∈ lowerHex)
    (some' : fresh = true → cs ≠ []) :
    ∃ vs, digitRun? hexDigit? fresh cs = some vs ∧ (∀ v ∈ vs, v < 16) ∧ vs.map digitChar = cs := by
  induction cs generalizing fresh with
  | nil =>
    cases fresh with
    | false => exact ⟨[], rfl, by simp, rfl⟩
    | true => exact absurd rfl (some' rfl)
  | cons c rest ih =>
    obtain ⟨v, value, small, same⟩ := lowerHex_digit (digits c List.mem_cons_self)
    obtain ⟨vs, run, smalls, sames⟩ := ih false (fun d hd => digits d (List.mem_cons_of_mem _ hd)) nofun
    have other : c ≠ '_' := by
      rintro rfl
      exact absurd (digits '_' List.mem_cons_self) (by decide)
    refine ⟨v :: vs, ?_, List.forall_mem_cons.2 ⟨small, smalls⟩, ?_⟩
    · simp only [digitRun?, if_neg other, value, run]
      rfl
    · rw [List.map_cons, same, sames]

theorem ofDigits_append (base : Nat) (vs : List Nat) (v : Nat) :
    ofDigits base (vs ++ [v]) = ofDigits base vs * base + v := by
  rw [ofDigits, List.foldl_append]
  rfl

theorem fixedDigits_ofDigits {base : Nat} {vs : List Nat} (small : ∀ v ∈ vs, v < base) :
    fixedDigits base vs.length (ofDigits base vs) = vs.map digitChar := by
  induction vs using List.reverseRecOn with
  | nil => rfl
  | append_singleton vs v ih =>
    have last : v < base := small v (by simp)
    have front : (ofDigits base vs * base + v) / base = ofDigits base vs := by
      rw [Nat.add_comm, Nat.add_mul_div_right _ _ (Nat.zero_lt_of_lt last), Nat.div_eq_of_lt last, Nat.zero_add]
    have back : (ofDigits base vs * base + v) % base = v := by
      rw [Nat.mul_add_mod', Nat.mod_eq_of_lt last]
    rw [List.length_append, List.length_singleton, fixedDigits, ofDigits_append, front, back,
      ih fun w hw => small w (List.mem_append_left _ hw), List.map_append, List.map_singleton]

theorem splitSign_of_head {c : Char} (plus : c ≠ '+') (minus : c ≠ '-') :
    splitSign (c :: cs) = (false, c :: cs) := by
  unfold splitSign
  split
  · next same => exact absurd (List.cons.inj same).1 minus
  · next same => exact absurd (List.cons.inj same).1 plus
  · rfl

theorem dropHexMark_of_free (free : ∀ c ∈ cs, c ≠ 'x' ∧ c ≠ 'X') : dropHexMark cs = cs := by
  unfold dropHexMark
  split
  · next x rest =>
    have other := free x (by simp)
    rw [if_neg (by simp [other])]
  · rfl

theorem readHex?_lowerHex (digits : ∀ c ∈ cs, c ∈ lowerHex) (nonempty : cs ≠ []) :
    ∃ vs, readHex? cs = some (ofDigits 16 vs : Nat) ∧ (∀ v ∈ vs, v < 16) ∧ vs.map digitChar = cs := by
  have plain : ∀ c ∈ lowerHex, isSpace c = false ∧ (c ≠ '+' ∧ c ≠ '-') ∧ c ≠ 'x' ∧ c ≠ 'X' :=
    forall_mem_of_all (by decide)
  obtain ⟨vs, run, small, same⟩ := digitRun?_lowerHex true digits fun _ => nonempty
  refine ⟨vs, ?_, small, same⟩
  have sign : splitSign cs = (false, cs) := by
    obtain ⟨c, rest, rfl⟩ := List.exists_cons_of_ne_nil nonempty
    obtain ⟨-, ⟨plus, minus⟩, -⟩ := plain c (digits c List.mem_cons_self)
    exact splitSign_of_head plus minus
  simp only [readHex?, trimBy_of_free fun c hc => (plain c (digits c hc)).1, sign,
    dropHexMark_of_free fun c hc => (plain c (digits c hc)).2.2, run]
  rfl

theorem IsUuid.read {s : String} (h : IsUuid s) : ∃ n, readUuid? s.toList = some n ∧ uuidText n = s := by
  obtain ⟨ds, length, digits, text⟩ := h
  have nonempty : ds ≠ [] := by
    rintro rfl
    cases length
  obtain ⟨vs, number, small, same⟩ := readHex?_lowerHex digits nonempty
  refine ⟨ofDigits 16 vs, ?_, ?_⟩
  · simp only [readUuid?, text, uuidDigits_hyphenated digits, length, if_true, number]
    rfl
  · have width : uuidLength = vs.length := by rw [← length, ← same, List.length_map]
    have written : fixedDigits 16 uuidLength (ofDigits 16 vs) = ds := by
      rw [width, fixedDigits_ofDigits small, same]
    refine String.toList_inj.1 ?_
    rw [text, ← written]
    exact String.toList_ofList ..

end ChoreReminder.Text
