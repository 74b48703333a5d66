import Mathlib.Data.List.TakeWhile
import Mathlib.Data.Nat.Init
import ChoreReminder.CommandLine.Run
import ChoreReminder.Proofs.Text.Uuid

/-! The tags of a marked-up text. Whether a text can be shown is decided by its tags alone, taken in their order;
what stands around them has no say. Plain characters in front of a text or behind it neither add a tag nor take one
away. As a closing tag takes off one open tag, there is no text whose tags close more than they open. -/

namespace ChoreReminder

namespace Markup

variable {fuel : Nat} {cs rest p s tag after : List Char} {c : Char}

theorem drop_takeWhile (q : Char → Bool) (cs : List Char) : cs.drop (cs.takeWhile q).length = cs.dropWhile q := by
  calc cs.drop (cs.takeWhile q).length
      = (cs.takeWhile q ++ cs.dropWhile q).drop (cs.takeWhile q).length := by rw [List.takeWhile_append_dropWhile]
    _ = cs.dropWhile q := List.drop_left ..

/-! ### Taking a text apart -/

theorem tag?_eq_some : tag? cs = some (tag, after) ↔
    ∃ c more, tag = c :: more ∧ cs = (c :: more) ++ ']' :: after ∧ beginsTag c = true ∧
      ∀ d ∈ more, d ≠ ']' ∧ d ≠ '[' := by
  constructor
  · intro found
    cases cs with
    | nil => cases found
    | cons c rest =>
      simp only [tag?, drop_takeWhile] at found
      split at found
      · next left closed =>
        by_cases begins : beginsTag c = true
        · simp only [begins, if_true, Option.some.injEq, Prod.mk.injEq] at found
          obtain ⟨rfl, rfl⟩ := found
          refine ⟨c, _, rfl, ?_, begins, fun d member => by simpa using List.mem_takeWhile_imp member⟩
          rw [List.cons_append, ← closed, List.takeWhile_append_dropWhile]
        · simp [begins] at found
      · cases found
  · rintro ⟨c, more, rfl, rfl, begins, inside⟩
    have upTo : (more ++ ']' :: after).takeWhile (fun d => d != ']' && d != '[') = more := by
      rw [List.takeWhile_append_of_pos (by simpa using inside), List.takeWhile_cons_of_neg (by simp),
        List.append_nil]
    simp [tag?, upTo, begins]

theorem tag?_append (plain : ']' ∉ p) (cs : List Char) : tag? (cs ++ p) = (tag? cs).map fun t => (t.1, t.2 ++ p) := by
  cases found : tag? cs with
  | some t =>
    obtain ⟨tag, after⟩ := t
    obtain ⟨c, more, same, rfl, begins, inside⟩ := tag?_eq_some.1 found
    exact tag?_eq_some.2 ⟨c, more, same, List.append_assoc .., begins, inside⟩
  | none =>
    cases longer : tag? (cs ++ p) with
    | none => rfl
    | some t =>
      obtain ⟨c, more, -, parts, begins, inside⟩ := tag?_eq_some.1 longer
      -- The bracket that closes the tag would stand in the text already, or in what was added to it.
      obtain ⟨between, -, added⟩ | ⟨between, before, closing⟩ := List.append_eq_append_iff.1 parts
      · exact absurd (added ▸ List.mem_append_right _ List.mem_cons_self) plain
      · cases between with
        | nil =>
          rw [List.nil_append] at closing
          exact absurd (closing ▸ List.mem_cons_self) plain
        | cons d left =>
          obtain ⟨rfl, -⟩ := List.cons.inj closing
          rw [tag?_eq_some.2 ⟨c, more, rfl, before, begins, inside⟩] at found
          cases found

def afterSlashes (n : Nat) (c : Char) (rest : List Char) : List Piece × List Char :=
  if c = '[' then
    match tag? rest with
    | some (tag, after) =>
      ([.text (List.replicate (n / 2) backslash),
        if n % 2 = 1 then .text ('[' :: tag ++ [']']) else .tag tag], after)
    | none => ([.text (List.replicate (n - 1) backslash ++ ['['])], rest)
  else ([.text (List.replicate n backslash ++ [c])], rest)

theorem pieces_succ (fuel : Nat) (cs : List Char) :
    pieces (fuel + 1) cs =
      match cs.dropWhile (· == backslash) with
      | [] => [.text cs]
      | c :: rest =>
        let taken := afterSlashes (cs.takeWhile (· == backslash)).length c rest
        taken.1 ++ pieces fuel taken.2 := by
  rw [pieces, drop_takeWhile]
  cases cs.dropWhile (· == backslash) with
  | nil => rfl
  | cons c rest =>
    by_cases bracket : c = '['
    · cases found : tag? rest with
      | none => simp [afterSlashes, bracket, found]
      | some t => simp [afterSlashes, bracket, found]
    · simp [afterSlashes, bracket]

theorem length_afterSlashes (n : Nat) (c : Char) (rest : List Char) :
    (afterSlashes n c rest).2.length ≤ rest.length := by
  unfold afterSlashes
  split
  · split
    · next tag after found =>
      obtain ⟨d, more, -, rfl, -⟩ := tag?_eq_some.1 found
      simp only [List.length_append, List.length_cons]
      omega
    · exact Nat.le_refl _
  · exact Nat.le_refl _

theorem afterSlashes_append (plain : ']' ∉ p) (n : Nat) (c : Char) (rest : List Char) :
    afterSlashes n c (rest ++ p) = ((afterSlashes n c rest).1, (afterSlashes n c rest).2 ++ p) := by
  simp only [afterSlashes, tag?_append plain]
  split
  · cases tag? rest <;> rfl
  · rfl

theorem left_shorter (split : cs.dropWhile (· == backslash) = c :: rest) (n : Nat) :
    (afterSlashes n c rest).2.length < cs.length := by
  have within := (List.dropWhile_sublist (l := cs) (· == backslash)).length_le
  rw [split, List.length_cons] at within
  exact Nat.lt_of_le_of_lt (length_afterSlashes n c rest) within

theorem pieces_fuel (enough : cs.length ≤ fuel) : pieces (fuel + 1) cs = pieces fuel cs := by
  induction fuel generalizing cs with
  | zero =>
    obtain rfl := List.eq_nil_of_length_eq_zero (Nat.le_zero.1 enough)
    rfl
  | succ fuel ih =>
    rw [pieces_succ, pieces_succ fuel]
    cases split : cs.dropWhile (· == backslash) with
    | nil => rfl
    | cons c rest =>
      have shorter := left_shorter split (cs.takeWhile (· == backslash)).length
      exact congrArg ((afterSlashes _ c rest).1 ++ ·) (ih (by omega))

/-! ### Tags -/

def Piece.tag? : Piece → Option (List Char)
  | .text _ => none
  | .tag tag => some tag

def tags (cs : List Char) : List (List Char) := (pieces cs.length cs).filterMap Piece.tag?

theorem tags_pieces (enough : cs.length ≤ fuel) : (pieces fuel cs).filterMap Piece.tag? = tags cs := by
  induction fuel, enough using Nat.le_induction with
  | base => rfl
  | succ fuel enough ih => rw [pieces_fuel enough, ih]

theorem tags_of_slashes (slashes : ∀ d ∈ cs, d = backslash) : tags cs = [] := by
  have whole : cs.dropWhile (· == backslash) = [] := List.dropWhile_eq_nil_iff.2 (by simpa using slashes)
  rw [← tags_pieces (Nat.le_succ cs.length), pieces_succ, whole]
  rfl

theorem tags_slashes_append (slashes : ∀ d ∈ s, d = backslash) (hides : c ≠ backslash) (rest : List Char) :
    tags (s ++ c :: rest) =
      (afterSlashes s.length c rest).1.filterMap Piece.tag? ++ tags (afterSlashes s.length c rest).2 := by
  have slashes' : ∀ d ∈ s, (d == backslash) = true := by simpa using slashes
  have hides' : ¬ (c == backslash) = true := by simpa using hides
  have split : (s ++ c :: rest).dropWhile (· == backslash) = c :: rest := by
    rw [List.dropWhile_append_of_pos slashes', List.dropWhile_cons, if_neg hides']
  have front : (s ++ c :: rest).takeWhile (· == backslash) = s := by
    rw [List.takeWhile_append_of_pos slashes', List.takeWhile_cons, if_neg hides', List.append_nil]
  have shorter := left_shorter split s.length
  rw [← tags_pieces (Nat.le_succ _), pieces_succ, split, front]
  simp only [List.filterMap_append, tags_pieces (Nat.le_of_lt shorter)]

theorem slashes_or_more (cs : List Char) :
    (∀ d ∈ cs, d = backslash) ∨ ∃ s c rest, cs = s ++ c :: rest ∧ (∀ d ∈ s, d = backslash) ∧ c ≠ backslash := by
  induction cs with
  | nil => exact .inl (by simp)
  | cons d cs ih =>
    by_cases hides : d = backslash
    · obtain slashes | ⟨s, c, rest, rfl, slashes, other⟩ := ih
      · exact .inl (List.forall_mem_cons.2 ⟨hides, slashes⟩)
      · exact .inr ⟨d :: s, c, rest, rfl, List.forall_mem_cons.2 ⟨hides, slashes⟩, other⟩
    · exact .inr ⟨[], d, cs, rfl, by simp, hides⟩

theorem tags_slashes_cons (slashes : ∀ d ∈ s, d = backslash) (opens : c ≠ '[') (hides : c ≠ backslash)
    (cs : List Char) : tags (s ++ c :: cs) = tags cs := by
  rw [tags_slashes_append slashes hides]
  simp [afterSlashes, opens, Piece.tag?]

theorem tags_append_left (plain : ∀ c ∈ p, c ≠ '[' ∧ c ≠ backslash) (cs : List Char) : tags (p ++ cs) = tags cs := by
  induction p with
  | nil => rfl
  | cons c p ih =>
    obtain ⟨⟨opens, hides⟩, plain⟩ := List.forall_mem_cons.1 plain
    exact (tags_slashes_cons (List.forall_mem_nil _) opens hides _).trans (ih plain)

theorem tags_append_right (plain : ∀ c ∈ p, c ≠ '[' ∧ c ≠ ']' ∧ c ≠ backslash) (cs : List Char) :
    tags (cs ++ p) = tags cs := by
  have closes : ']' ∉ p := fun member => (plain _ member).2.1 rfl
  -- The induction is on the length, for a first piece may take any part of the text.
  induction length : cs.length using Nat.strong_induction_on generalizing cs with
  | _ n ih =>
    obtain slashes | ⟨s, c, rest, rfl, slashes, hides⟩ := slashes_or_more cs
    · cases p with
      | nil => rw [List.append_nil]
      | cons d p =>
        obtain ⟨⟨opens, -, hides⟩, plain⟩ := List.forall_mem_cons.1 plain
        have nothing : tags (p ++ []) = tags [] :=
          tags_append_left (fun c member => ⟨(plain c member).1, (plain c member).2.2⟩) []
        rw [tags_slashes_cons slashes opens hides, tags_of_slashes slashes, ← List.append_nil p, nothing]
        rfl
    · have shorter := length_afterSlashes s.length c rest
      rw [List.length_append, List.length_cons] at length
      rw [List.append_assoc, List.cons_append, tags_slashes_append slashes hides, tags_slashes_append slashes hides,
        afterSlashes_append closes, ih _ (by omega) _ rfl]

/-! ### Open tags -/

theorem shown_ok (ps : List Piece) (isOpen : List OpenTag) :
    (∃ t, shown isOpen ps = .ok t) ↔ ∃ left, (ps.filterMap Piece.tag?).foldlM step isOpen = .ok left := by
  induction ps generalizing isOpen with
  | nil => exact ⟨fun _ => ⟨isOpen, rfl⟩, fun _ => ⟨[], rfl⟩⟩
  | cons piece rest ih =>
    cases piece with
    | text cs =>
      rw [List.filterMap_cons_none rfl, ← ih, shown]
      cases shown isOpen rest <;> simp [Except.map]
    | tag tag =>
      rw [List.filterMap_cons, shown]
      simp only [Piece.tag?, List.foldlM_cons]
      cases step isOpen tag with
      | error f => exact ⟨nofun, nofun⟩
      | ok isOpen => exact ih isOpen

theorem render_ok (s : String) :
    (∃ t, render s = .ok t) ↔ ∃ left, (tags s.toList).foldlM step [] = .ok left := by
  have enough : s.toList.length ≤ s.length + 1 := by rw [String.length_toList]; omega
  rw [← tags_pieces enough, ← shown_ok, render]
  cases shown [] (pieces (s.length + 1) s.toList) <;> simp [Except.map]

def closes (tag : List Char) : Bool := tag.head? == some '/'

theorem close_length {name : String} {isOpen left : List OpenTag} {closed : OpenTag}
    (found : close name isOpen = some (closed, left)) : left.length + 1 = isOpen.length := by
  induction isOpen generalizing left with
  | nil => cases found
  | cons first isOpen ih =>
    rw [close] at found
    split at found
    · obtain ⟨-, rfl⟩ := Prod.mk.inj (Option.some.inj found)
      rfl
    · obtain ⟨⟨other, rest⟩, deeper, same⟩ := Option.map_eq_some_iff.1 found
      obtain ⟨rfl, rfl⟩ := Prod.mk.inj same
      exact congrArg (· + 1) (ih deeper)

theorem finish_ok {closed : OpenTag × List OpenTag} {left : List OpenTag} (done : finish closed = .ok left) :
    left = closed.2 := by
  rw [finish] at done
  split at done
  · exact (Except.ok.inj done).symm
  · cases done

theorem step_length {isOpen left : List OpenTag} (taken : step isOpen tag = .ok left) :
    left.length + (if closes tag then 1 else 0) = isOpen.length + (if closes tag then 0 else 1) := by
  have front : closes tag = ((tag.takeWhile (· != '=')).head? == some '/') := by
    cases tag with
    | nil => rfl
    | cons c rest =>
      by_cases equals : c = '='
      · simp [closes, equals]
      · simp [closes, equals]
  unfold step at taken
  split at taken
  · next name slash =>
    rw [front, slash]
    split at taken
    · cases isOpen with
      | nil => cases taken
      | cons last rest =>
        rw [finish_ok taken]
        rfl
    · cases usual : usualName name with
      | error f =>
        rw [usual] at taken
        cases taken
      | ok name =>
        simp only [usual, bind, Except.bind] at taken
        split at taken
        · next closed found =>
          rw [finish_ok taken]
          exact close_length found
        · cases taken
  · next opens =>
    have no : closes tag = false := by
      rw [front]
      cases start : tag.takeWhile (· != '=') with
      | nil => rfl
      | cons c rest =>
        simp only [List.head?_cons, beq_eq_false_iff_ne, ne_eq, Option.some.injEq]
        exact fun slash => opens rest (slash ▸ start)
    cases usual : usualName (tag.takeWhile (· != '=')) with
    | error f =>
      rw [usual] at taken
      cases taken
    | ok name =>
      simp only [usual, bind, Except.bind, pure, Except.pure, Except.ok.injEq] at taken
      subst taken
      simp [no]

theorem foldlM_step_length {ts : List (List Char)} {isOpen left : List OpenTag}
    (taken : ts.foldlM step isOpen = .ok left) :
    left.length + ts.countP closes = isOpen.length + ts.countP (!closes ·) := by
  induction ts generalizing isOpen with
  | nil =>
    obtain rfl := Except.ok.inj taken
    rfl
  | cons t ts ih =>
    rw [List.foldlM_cons] at taken
    cases first : step isOpen t with
    | error f =>
      rw [first] at taken
      cases taken
    | ok next =>
      rw [first] at taken
      have rest := ih taken
      have one := step_length first
      rw [List.countP_cons, List.countP_cons]
      cases closing : closes t <;> simp only [closing, if_true, if_false, Bool.false_eq_true, Bool.not_true,
        Bool.not_false] at one ⊢ <;> omega

/-- A closing tag stands where all tags that were opened before it have been closed. -/
def Overclosed (ts : List (List Char)) : Prop :=
  ∃ before tag after, ts = before ++ tag :: after ∧ closes tag = true ∧
    before.countP (!closes ·) ≤ before.countP closes

end Markup

/-- A console that shows no text in which a closing tag has no open tag to match. -/
def Console.Strict (console : Console) : Prop :=
  ∀ text, Markup.Overclosed (Markup.tags text.toList) → ∃ f, console text = .error f

namespace Markup

theorem render_strict : Console.Strict render := by
  intro text unmatched
  obtain ⟨before, tag, after, parts, closing, balance⟩ := unmatched
  cases shown : render text with
  | error f => exact ⟨f, rfl⟩
  | ok t =>
    obtain ⟨left, taken⟩ := (render_ok text).1 ⟨t, shown⟩
    rw [parts, List.foldlM_append] at taken
    cases front : before.foldlM step [] with
    | error f =>
      rw [front] at taken
      cases taken
    | ok isOpen =>
      have none := foldlM_step_length front
      rw [front] at taken
      change (tag :: after).foldlM step isOpen = .ok left at taken
      rw [List.foldlM_cons] at taken
      cases next : step isOpen tag with
      | error f =>
        rw [next] at taken
        cases taken
      | ok isOpen' =>
        have fewer := step_length next
        simp only [closing, if_true, List.length_nil] at fewer none
        omega

/-! ### Results in green -/

theorem tags_tag (c : Char) (more : List Char) (begins : beginsTag c = true) (inside : ∀ d ∈ more, d ≠ ']' ∧ d ≠ '[')
    (cs : List Char) : tags ('[' :: ((c :: more) ++ ']' :: cs)) = (c :: more) :: tags cs := by
  have found : tag? ((c :: more) ++ ']' :: cs) = some (c :: more, cs) :=
    tag?_eq_some.2 ⟨c, more, rfl, rfl, begins, inside⟩
  have taken : afterSlashes 0 '[' ((c :: more) ++ ']' :: cs) = ([.text [], .tag (c :: more)], cs) := by
    rw [afterSlashes, if_pos rfl, found]
    rfl
  have apart := tags_slashes_append (s := []) (List.forall_mem_nil _) (show '[' ≠ backslash by decide)
    ((c :: more) ++ ']' :: cs)
  rw [List.length_nil, taken] at apart
  exact apart

theorem tags_green (cs : List Char) :
    tags ("[green]Chore added:[/green] ".toList ++ cs) = "green".toList :: "/green".toList :: tags cs := by
  have opening := tags_tag 'g' "reen".toList (by decide) (Text.forall_mem_of_all (by decide))
    ("Chore added:".toList ++ ('[' :: ("/green".toList ++ ']' :: (" ".toList ++ cs))))
  have closing := tags_tag '/' "green".toList (by decide) (Text.forall_mem_of_all (by decide)) (" ".toList ++ cs)
  have label := tags_append_left (p := "Chore added:".toList) (Text.forall_mem_of_all (by decide))
    ('[' :: ("/green".toList ++ ']' :: (" ".toList ++ cs)))
  have blank := tags_append_left (p := " ".toList) (Text.forall_mem_of_all (by decide)) cs
  rw [label] at opening
  exact opening.trans (congrArg _ (closing.trans (congrArg _ blank)))

theorem tags_added {id : String} (plain : ∀ c ∈ id.toList, c ≠ '[' ∧ c ≠ backslash) (name : String) :
    tags (Command.addedText id name).toList = "green".toList :: "/green".toList :: tags name.toList := by
  have behind : tags (name.toList ++ ")".toList) = tags name.toList :=
    tags_append_right (Text.forall_mem_of_all (by decide)) _
  have between : tags (" (".toList ++ (name.toList ++ ")".toList)) = tags (name.toList ++ ")".toList) :=
    tags_append_left (Text.forall_mem_of_all (by decide)) _
  change tags ("[green]Chore added:[/green] " ++ id ++ " (" ++ name ++ ")").toList = _
  simp only [String.toList_append, List.append_assoc]
  rw [tags_green, tags_append_left plain, between, behind]

theorem overclosed_added {id name : String} (plain : ∀ c ∈ id.toList, c ≠ '[' ∧ c ≠ backslash)
    (unmatched : Overclosed (tags name.toList)) : Overclosed (tags (Command.addedText id name).toList) := by
  obtain ⟨before, tag, after, parts, closing, balance⟩ := unmatched
  refine ⟨"green".toList :: "/green".toList :: before, tag, after, ?_, closing, ?_⟩
  · rw [tags_added plain, parts, List.cons_append, List.cons_append]
  · have opening : closes "green".toList = false := by decide
    have closing : closes "/green".toList = true := by decide
    simp only [List.countP_cons, opening, closing, Bool.not_false, Bool.not_true, if_true, if_false,
      Bool.false_eq_true]
    omega

end Markup

end ChoreReminder
