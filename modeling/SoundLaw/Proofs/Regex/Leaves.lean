import SoundLaw.Proofs.Regex.Ensures
import Mathlib.Data.List.TakeWhile

/-!
The parts of the reader that take no bracket: names, numbers, flags, counts, and the rest of an
escape after its first character.
-/
namespace SoundLaw.Regex.Read
variable {t : Text} {s : Source} {flags : Flags}

theorem past_next {c : Char} {more : Text} (far : Past t s.rest) (next : s.rest = c :: more)
    (plain : isBracket c = false) : Past t (s.past 1).rest := by
  rw [Source.past_rest, next]
  rw [next] at far
  exact far.trans (Past.step plain (Past.here more))

theorem plain_of_test {p : Char → Bool} (fails : brackets.any p = false) (c : Char)
    (passes : p c = true) : isBracket c = false := by
  unfold isBracket
  rw [decide_eq_false_iff_not]
  intro member
  exact List.any_eq_false.mp fails c member passes

theorem past_span {p : Char → Bool} (far : Past t s.rest) (fails : brackets.any p = false) :
    Past t (s.past (s.rest.takeWhile p).length).rest :=
  far.trans (Past.takeWhile (plain_of_test fails) s.rest)

theorem past_digits {p : Char → Bool} {n : Nat} (most : Nat) (far : Past t s.rest)
    (fails : brackets.any p = false) (inside : n ≤ ((s.rest.take most).takeWhile p).length) :
    Past t (s.past n).rest := by
  refine far.trans (Past.drop fun c member => plain_of_test fails c ?_)
  have first : (s.rest.take most).takeWhile p <+: s.rest :=
    (List.takeWhile_prefix p).trans (List.take_prefix most s.rest)
  have digit := (List.take_prefix_take_left inside).subset member
  rw [← List.prefix_iff_eq_take.mp first] at digit
  exact List.mem_takeWhile_imp digit

theorem accept_past {c : Char} (far : Past t s.rest) (plain : isBracket c = false) :
    Ensures (accept c) s fun _ s' => Past t s'.rest :=
  ensures_accept.mpr ⟨fun _ next => past_next far next plain, fun _ => far⟩

theorem expect_past {c : Char} (far : Past t s.rest) (plain : isBracket c = false) :
    Ensures (expect c) s fun _ s' => Past t s'.rest :=
  ensures_expect.mpr fun _ next => past_next far next plain

/-! ### Names of properties -/

theorem past_value (t : Text) : Past t (t.drop (valueLength t)) := by
  cases t with
  | nil => exact Past.here []
  | cons sign rest =>
    simp only [valueLength]
    split
    · rename_i value
      have plain : isBracket sign = false := by
        rcases value.1 with colon | equals
        · rw [colon]; decide
        · rw [equals]; decide
      exact Past.step plain (Past.takeWhile (plain_of_test (by decide)) rest)
    · exact Past.here (sign :: rest)

theorem past_property (far : Past t s.rest) : Past t (s.past (propertyLength s.rest)).rest := by
  refine far.trans ?_
  rw [Source.past_rest, propertyLength, ← List.drop_drop]
  exact (Past.takeWhile (plain_of_test (by decide)) s.rest).trans (past_value _)

theorem trimmed_isEmpty (t : Text) :
    ((t.dropWhile (· = ' ')).reverse.dropWhile (· = ' ')).reverse.isEmpty = true ↔
      t.any (· ≠ ' ') = false := by
  simp only [List.isEmpty_iff, List.reverse_eq_nil_iff, List.dropWhile_eq_nil_iff,
    List.mem_reverse, List.any_eq_false]
  constructor
  · intro blank c member
    rw [← List.takeWhile_append_dropWhile (p := fun c => decide (c = ' ')) (l := t)] at member
    rcases List.mem_append.mp member with early | late
    · have passes := List.mem_takeWhile_imp early
      simpa using passes
    · simpa using blank c late
  · intro blank c member
    have inside := (List.dropWhile_sublist _).subset member
    simpa using blank c inside

theorem propertyName_ends :
    Ensures propertyName s fun _ s' => s' = s.past (propertyLength s.rest) := by
  unfold propertyName
  rw [ensures_bind, ensures_span, ensures_bind, ensures_get, ensures_bind, ensures_next]
  simp only [Source.past_rest]
  have length : s.past (propertyLength s.rest) =
      (s.past (s.rest.takeWhile isPropertyNamePart).length).past
        (valueLength (s.rest.drop (s.rest.takeWhile isPropertyNamePart).length)) := by
    rw [Source.past_past, propertyLength]
  constructor
  · intro c more next
    rw [length, next, ensures_ite]
    constructor
    · intro sign
      have sign : c = ':' ∨ c = '=' := by simpa using sign
      have value : more.takeWhile (fun c => isPropertyNamePart c || c = '/') =
          more.takeWhile isPropertyValuePart := rfl
      rw [ensures_bind, ensures_span, ensures_ite]
      simp only [Source.past_rest, next, List.drop_one, List.tail_cons, trimmed_isEmpty, value]
      constructor
      · intro blank
        rw [ensures_bind, ensures_set, ensures_pure, valueLength,
          if_neg fun h => Bool.false_ne_true (blank.symm.trans h.2), Source.past_zero]
      · intro full
        rw [ensures_pure, valueLength, if_pos ⟨sign, by simpa using full⟩, Source.past_past _ 1,
          Nat.add_comm 1]
    · intro other
      have other : ¬ (c = ':' ∨ c = '=') := by simpa using other
      rw [ensures_bind, ensures_set, ensures_pure, valueLength, if_neg (fun h => other h.1),
        Source.past_zero]
  · intro none
    rw [ensures_pure, length, none, valueLength, Source.past_zero]

theorem propertyName_past (far : Past t s.rest) :
    Ensures propertyName s fun _ s' => Past t s'.rest := by
  refine propertyName_ends.mono ?_
  intro _ s' same
  rw [same]
  exact past_property far

theorem lookUp_stays (qualifier : Option Text) (name : Text) (narrow : Bool) :
    Ensures (lookUp qualifier name narrow) s fun _ s' => s' = s := by
  unfold lookUp
  split
  · rw [ensures_ite]
    refine ⟨fun _ => ?_, fun _ => ensures_fail _⟩
    split
    · exact ensures_pure.mpr rfl
    · exact ensures_fail _
  · split
    · exact ensures_pure.mpr rfl
    · exact ensures_fail _

/-! ### Escapes -/

theorem property_past (positive : Bool) (far : Past t s.rest) :
    Ensures (property positive) s fun _ s' => Past t s'.rest := by
  unfold property
  have back (s₁ : Source) : Ensures (do
      set s
      return Escaped.code (if positive = true then 0x70 else 0x50) : Read Escaped) s₁
      fun _ s' => Past t s'.rest := by
    rw [ensures_bind, ensures_set, ensures_pure]
    exact far
  rw [ensures_bind, ensures_get, ensures_bind, ensures_next]
  refine ⟨fun c more next => ?_, fun _ => back s⟩
  split
  · rename_i brace
    have inside : Past t (s.past 1).rest := past_next far next (by cases brace; decide)
    refine (accept_past inside (by decide)).bind ?_
    intro negated s₁ far₁
    refine (propertyName_past far₁).bind ?_
    intro name s₂ far₂
    dsimp only
    refine (accept_past far₂ (by decide)).bind ?_
    intro closed s₃ far₃
    rw [ensures_ite]
    refine ⟨fun _ => ?_, fun _ => back s₃⟩
    refine (lookUp_stays _ _ _).bind ?_
    intro _ s₄ same
    rw [ensures_pure, same]
    exact far₃
  · rename_i d _ same
    cases same
    rw [ensures_ite]
    refine ⟨fun letter => ?_, fun _ => back _⟩
    refine (lookUp_stays _ _ _).bind ?_
    intro _ s₁ same
    rw [ensures_pure, same]
    refine past_next far next ?_
    exact plain_of_test (p := fun c => decide (c ∈ "CLMNPSZ".toList)) (by decide) c
      (by simpa using letter)
  · rename_i none
    cases none

theorem hexEscape_past (letter : Char) (count : Nat) (far : Past t s.rest) :
    Ensures (hexEscape letter count) s fun _ s' => Past t s'.rest := by
  unfold hexEscape
  rw [ensures_bind, ensures_get, ensures_bind, ensures_get, ensures_bind, ensures_skip]
  have after := past_digits (p := Text.isDigitIn 16) count far (by decide) le_rfl
  refine ensures_guard (ensures_failAt _ _) ?_
  intro _
  dsimp only
  rw [ensures_ite, ensures_pure]
  exact ⟨fun _ => after, fun _ => ensures_failAt _ _⟩

theorem octalEscape_past (first : Char) (far : Past t s.rest) :
    Ensures (octalEscape first) s fun _ s' => Past t s'.rest := by
  unfold octalEscape
  rw [ensures_bind, ensures_get, ensures_bind, ensures_skip, ensures_ite, ensures_pure]
  have after := past_digits (p := Text.isDigitIn 8) 2 far (by decide) le_rfl
  exact ⟨fun _ => after, fun _ => ensures_fail _⟩

theorem namedCharacter_past (far : Past t s.rest) :
    Ensures namedCharacter s fun _ s' => Past t s'.rest := by
  unfold namedCharacter
  have back (s₁ : Source) : Ensures (do
      set s
      return Escaped.code 0x4E : Read Escaped) s₁ fun _ s' => Past t s'.rest := by
    rw [ensures_bind, ensures_set, ensures_pure]
    exact far
  rw [ensures_bind, ensures_get]
  refine (accept_past far (by decide)).bind ?_
  intro opened s₁ _
  dsimp only
  rw [ensures_ite]
  refine ⟨fun _ => ?_, fun _ => back s₁⟩
  rw [ensures_bind, ensures_span, ensures_bind, ensures_accept]
  constructor
  · intro _ _
    rw [if_pos rfl, ensures_bind]
    exact ensures_fail _
  · intro _
    rw [if_neg (by decide)]
    exact back _

theorem sharedEscape_past (c : Char) (far : Past t s.rest) :
    Ensures (sharedEscape flags c) s fun _ s' => Past t s'.rest := by
  unfold sharedEscape
  split
  · exact hexEscape_past 'x' 2 far
  · exact hexEscape_past 'u' 4 far
  · exact hexEscape_past 'U' 8 far
  · exact namedCharacter_past far
  · exact property_past true far
  · exact property_past false far
  · rw [ensures_ite]
    refine ⟨fun _ => ?_, fun _ => ensures_pure.mpr far⟩
    split
    · exact ensures_pure.mpr far
    · exact ensures_pure.mpr far
    · exact ensures_fail _

theorem isOpen_stays (ref : GroupRef) : Ensures (isOpen ref) s fun _ s' => s' = s := by
  unfold isOpen
  rw [ensures_bind, ensures_get]
  cases ref with
  | number n => exact ensures_pure.mpr rfl
  | name u => exact ensures_pure.mpr rfl

theorem refer_past (ref : GroupRef) (position : Nat) (far : Past t s.rest) :
    Ensures (refer flags ref position) s fun _ s' => Past t s'.rest := by
  unfold refer
  rw [ensures_bind, ensures_modify, ensures_pure]
  exact far

theorem numberEscape_past {first : Char} (far : Past t s.rest) :
    Ensures (numberEscape flags first) s fun _ s' => Past t s'.rest := by
  unfold numberEscape
  rw [ensures_ite]
  constructor
  · intro _
    refine (octalEscape_past first far).bind ?_
    intro _ s₁ far₁
    exact ensures_pure.mpr far₁
  · intro _
    rw [ensures_bind, ensures_get]
    dsimp only
    rw [ensures_ite]
    constructor
    · intro octal
      rw [ensures_bind, ensures_skip, ensures_pure]
      refine past_digits (p := Text.isDigitIn 10) 2 far (by decide) ?_
      simp only [List.length_cons, Bool.and_eq_true, decide_eq_true_eq] at octal
      omega
    · intro _
      rw [ensures_bind, ensures_skip]
      refine (isOpen_stays _).bind ?_
      intro opened s₁ same
      refine ensures_guard (ensures_fail _) ?_
      intro _
      rw [ensures_bind, ensures_get, same]
      refine refer_past _ _ (past_digits (p := Text.isDigitIn 10) 2 far (by decide) ?_)
      rw [List.length_take, List.length_cons]
      omega

theorem name_plain {name : Text} (isName : isName name = true) :
    ∀ c ∈ name, isBracket c = false := by
  cases name with
  | nil => cases isName
  | cons first rest =>
    simp only [Read.isName, Bool.and_eq_true, List.all_eq_true] at isName
    intro c member
    rcases List.mem_cons.mp member with same | later
    · rw [same]
      exact plain_of_test (p := fun c => Unicode.isNameStart c.toNat) (by decide) first isName.1
    · exact plain_of_test (p := fun c => Unicode.isNamePart c.toNat) (by decide) c
        (isName.2 c later)

theorem groupName_past (allowNumber : Bool) (far : Past t s.rest) :
    Ensures (groupName allowNumber) s fun _ s' => Past t s'.rest := by
  unfold groupName
  rw [ensures_bind, ensures_span]
  refine ensures_guard (ensures_fail _) ?_
  intro _
  have after (plain : ∀ c ∈ s.rest.takeWhile fun c => decide (c ≠ ')') && decide (c ≠ '>'),
      isBracket c = false) :
      Past t (s.past
        (s.rest.takeWhile fun c => decide (c ≠ ')') && decide (c ≠ '>')).length).rest := by
    refine far.trans (Past.drop ?_)
    rwa [← List.prefix_iff_eq_take.mp (List.takeWhile_prefix _)]
  rw [ensures_ite]
  constructor
  · intro numeral
    dsimp only
    rw [ensures_ite, ensures_pure]
    refine ⟨fun _ => after fun c member => ?_, fun _ => ensures_fail _⟩
    simp only [Text.isNumeral, Bool.and_eq_true, List.all_eq_true] at numeral
    exact plain_of_test (p := Text.isDigitIn 10) (by decide) c (numeral.2 c member)
  · intro _
    rw [ensures_ite, ensures_pure]
    exact ⟨fun name => after (name_plain name), fun _ => ensures_fail _⟩

theorem groupEscape_past (far : Past t s.rest) :
    Ensures (groupEscape flags) s fun _ s' => Past t s'.rest := by
  unfold groupEscape
  refine (expect_past far (by decide)).bind ?_
  intro _ s₁ far₁
  rw [ensures_bind, ensures_get]
  refine (groupName_past true far₁).bind ?_
  intro ref s₂ far₂
  refine (expect_past far₂ (by decide)).bind ?_
  intro _ s₃ far₃
  refine (isOpen_stays ref).bind ?_
  intro opened s₄ same
  rw [ensures_ite, same]
  exact ⟨fun _ => ensures_fail _, fun _ => refer_past ref _ far₃⟩

/-- An escape takes one character, whatever it is, and after it no bracket. -/
theorem escape_past :
    Ensures (escape flags) s fun _ s' => ∃ c more, s.rest = c :: more ∧ Past more s'.rest := by
  unfold escape
  rw [ensures_bind, ensures_next]
  refine ⟨fun c more next => ?_, fun _ => ensures_fail _⟩
  have far : Past more (s.past 1).rest := by
    rw [Source.past_rest, next]
    exact Past.here more
  suffices rest : Ensures _ (s.past 1) fun _ s' => Past more s'.rest from
    rest.mono fun _ _ far => ⟨c, more, next, far⟩
  dsimp only
  rw [ensures_ite]
  refine ⟨fun _ => ensures_orElse (groupEscape_past far) (ensures_pure.mpr far), fun _ => ?_⟩
  rw [ensures_ite]
  refine ⟨fun _ => ensures_pure.mpr far, fun _ => ?_⟩
  rw [ensures_ite]
  refine ⟨fun _ => numberEscape_past far, fun _ => ?_⟩
  split
  · exact ensures_pure.mpr far
  · refine (sharedEscape_past c far).bind ?_
    intro _ _ far₁
    exact ensures_pure.mpr far₁

theorem escapeInClass_past :
    Ensures (escapeInClass flags) s fun _ s' =>
      ∃ c more, s.rest = c :: more ∧ Past more s'.rest := by
  unfold escapeInClass
  rw [ensures_bind, ensures_next]
  refine ⟨fun c more next => ?_, fun _ => ensures_fail _⟩
  have far : Past more (s.past 1).rest := by
    rw [Source.past_rest, next]
    exact Past.here more
  suffices rest : Ensures _ (s.past 1) fun _ s' => Past more s'.rest from
    rest.mono fun _ _ far => ⟨c, more, next, far⟩
  dsimp only
  rw [ensures_ite]
  refine ⟨fun _ => octalEscape_past c far, fun _ => ?_⟩
  rw [ensures_ite]
  exact ⟨fun _ => ensures_pure.mpr far, fun _ => sharedEscape_past c far⟩

/-! ### Repeats and flags -/

theorem countedRepeat_past (far : Past t s.rest) :
    Ensures countedRepeat s fun _ s' => Past t s'.rest := by
  unfold countedRepeat
  rw [ensures_bind, ensures_get, ensures_bind, ensures_span, ensures_bind]
  have least : Past t (s.past (s.rest.takeWhile (Text.isDigitIn 10)).length).rest :=
    past_span far (by decide)
  refine (accept_past least (by decide)).mono ?_
  intro comma s₁ far₁
  dsimp only
  rw [ensures_ite, ensures_bind, ensures_span, ensures_bind, ensures_bind, ensures_pure,
    ensures_bind]
  refine ⟨fun _ => (accept_past (past_span far₁ (by decide)) (by decide)).mono ?_,
    fun _ => (accept_past far₁ (by decide)).mono ?_⟩
  -- With a number after the comma or without one the rest is the same.
  all_goals
    intro closed s₂ far₂
    rw [ensures_ite, ensures_bind, ensures_set, ensures_pure]
    refine ⟨fun _ => far, fun _ => ?_⟩
    refine ensures_guard (ensures_failAt _ _) ?_
    intro _
    rw [ensures_ite]
    exact ⟨fun _ => ensures_failAt _ _, fun _ => ensures_pure.mpr far₂⟩

theorem repeatCounts_past (c : Char) (far : Past t s.rest) :
    Ensures (repeatCounts c) s fun _ s' => Past t s'.rest := by
  unfold repeatCounts
  split
  · exact ensures_pure.mpr far
  · exact ensures_pure.mpr far
  · exact ensures_pure.mpr far
  · exact countedRepeat_past far

theorem greed_past (far : Past t s.rest) : Ensures greed s fun _ s' => Past t s'.rest := by
  unfold greed
  refine (accept_past far (by decide)).bind ?_
  intro lazy s₁ far₁
  rw [ensures_ite]
  refine ⟨fun _ => ensures_pure.mpr far₁, fun _ => ?_⟩
  refine (accept_past far₁ (by decide)).bind ?_
  intro possessive s₂ far₂
  rw [ensures_ite]
  exact ⟨fun _ => ensures_pure.mpr far₂, fun _ => ensures_pure.mpr far₂⟩

theorem repeatLast_past (position : Nat) (counts : Nat × Option Nat)
    (before : List (Option Pattern)) (far : Past t s.rest) :
    Ensures (repeatLast position counts before) s fun _ s' => Past t s'.rest := by
  unfold repeatLast
  split
  · refine (greed_past far).bind ?_
    intro _ _ far₁
    exact ensures_pure.mpr far₁
  · exact ensures_failAt _ _
  · exact ensures_failAt _ _

theorem ofText_plain {u : Text} {flag : Flag} {n : Nat} (known : Flag.ofText? u = some (flag, n)) :
    ∀ c ∈ u.take n, isBracket c = false := by
  unfold Flag.ofText? at known
  split at known <;> cases known <;> simp <;> decide

theorem flagSet_past (fuel : Nat) (far : Past t s.rest) :
    Ensures (flagSet fuel) s fun _ s' => Past t s'.rest := by
  induction fuel generalizing s with
  | zero => exact ensures_pure.mpr far
  | succ fuel ih =>
    unfold flagSet
    rw [ensures_bind, ensures_get]
    split
    · exact ensures_pure.mpr far
    · rename_i flag n known
      rw [ensures_bind, ensures_skip, ensures_bind]
      have after : Past t (s.past n).rest := far.trans (Past.drop (ofText_plain known))
      refine (ih after).mono ?_
      intro _ _ far₁
      exact ensures_pure.mpr far₁

theorem flagSets_past (far : Past t s.rest) :
    Ensures flagSets s fun _ s' => Past t s'.rest := by
  unfold flagSets
  rw [ensures_bind, ensures_get]
  refine (flagSet_past _ far).bind ?_
  intro on s₁ far₁
  refine (accept_past far₁ (by decide)).bind ?_
  intro minus s₂ far₂
  rw [ensures_ite]
  refine ⟨fun _ => ?_, fun _ => ensures_pure.mpr far₂⟩
  refine (flagSet_past _ far₂).bind ?_
  intro off s₃ far₃
  rw [ensures_ite]
  exact ⟨fun _ => ensures_fail _, fun _ => ensures_pure.mpr far₃⟩

theorem requireWhole_stays (w : WholeFlags) (on : Flags) :
    Ensures (requireWhole w on) s fun _ s' => s' = s := by
  intro a s' ended
  unfold requireWhole at ended
  split at ended
  · cases ended
    rfl
  · cases ended

theorem openGroup_rest (name : Option Text) :
    Ensures (openGroup name) s fun _ s' => s'.rest = s.rest := by
  unfold openGroup
  rw [ensures_bind, ensures_get]
  dsimp only
  split
  · rw [ensures_bind, ensures_set, ensures_pure]
  · rw [ensures_bind, ensures_set, ensures_pure]

theorem closeGroup_rest : Ensures closeGroup s fun _ s' => s'.rest = s.rest :=
  ensures_modify.mpr rfl

end SoundLaw.Regex.Read
