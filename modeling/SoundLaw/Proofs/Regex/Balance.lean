import SoundLaw.Proofs.Regex.Leaves

/-!
Reading keeps to the parentheses. Whatever the reader takes for a class, a comment, a group or a
row of elements leaves the parenthesis that closes nothing where it was, so what is read inside of
a group ends at the parenthesis that closes it.
-/
namespace SoundLaw.Regex

/-! ### The parenthesis over pieces of a text -/

variable {t u : Text} {zone : Zone}

theorem closing_skip (depth skip : Nat) (zone : Zone) (t : Text) :
    closing depth zone skip t = closing depth zone 0 (t.drop skip) := by
  induction skip generalizing t with
  | zero => rfl
  | succ skip ih =>
    cases t with
    | nil => rfl
    | cons c t => exact ih t

theorem not_bracket {c : Char} (plain : isBracket c = false) :
    c ≠ '\\' ∧ c ≠ '(' ∧ c ≠ ')' ∧ c ≠ '[' ∧ c ≠ ']' := by
  simpa [isBracket, brackets] using plain

/-- Two texts in which the same parenthesis closes nothing. -/
def Balanced (t u : Text) : Prop := ∀ depth, closing depth .pattern 0 t = closing depth .pattern 0 u

/-- The second text is the first after the end of the group that is open there. -/
def Closes (t u : Text) : Prop :=
  ∀ depth, closing (depth + 1) .pattern 0 t = closing depth .pattern 0 u

theorem Past.balanced (far : Past t u) : Balanced t u := by
  intro depth
  induction far with
  | here t => rfl
  | step plain later ih =>
    obtain ⟨slash, opens, closes, bracket, _⟩ := not_bracket plain
    simp only [closing, slash, opens, closes, bracket, ↓reduceIte]
    exact ih

theorem Past.members (far : Past t u) (depth : Nat) :
    closing depth (.members false) 0 t = closing depth (.members false) 0 u := by
  induction far with
  | here t => rfl
  | step plain later ih =>
    obtain ⟨slash, _, _, bracket, ends⟩ := not_bracket plain
    simp only [closing, slash, bracket, ends, false_and, ↓reduceIte]
    exact ih

theorem Past.of_two {c d : Char} (first : isBracket c = false) (second : isBracket d = false) :
    Past (c :: d :: t) t :=
  Past.step first (Past.step second (Past.here t))

namespace Closes

theorem of_parenthesis (t : Text) : Closes (')' :: t) t := fun _ => by simp [closing]

theorem extension (noComment : t.head? ≠ some '#') (closes : Closes t u) :
    Balanced ('(' :: '?' :: t) u := by
  intro depth
  have mark : t.take 1 ≠ ['#'] := by
    intro mark
    apply noComment
    cases t with
    | nil => cases mark
    | cons c more => simpa using mark
  rw [← closes depth]
  simp [closing, mark]

theorem capture (noMark : t.head? ≠ some '?') (closes : Closes t u) : Balanced ('(' :: t) u := by
  intro depth
  have mark : t.take 2 ≠ ['?', '#'] := by
    intro mark
    apply noMark
    cases t with
    | nil => cases mark
    | cons c more =>
      simp only [List.take_succ_cons, List.cons.injEq] at mark
      simp [mark.1]
  rw [← closes depth]
  simp [closing, mark]

end Closes

/-- Two texts inside of a class in which the same parenthesis closes nothing. Only the first
member of a class may be a closing bracket. -/
def Members (t u : Text) : Prop :=
  ∀ depth first, (t.head? = some ']' → first = true) →
    closing depth (.members first) 0 t = closing depth (.members false) 0 u

namespace Read
variable {flags : Flags} {s : Source}

/-! ### Classes -/

theorem namedFrom_ends {t : Text} {start : Nat} (negated : Bool) (begins : s.rest = t.drop start) :
    Ensures (do
      let (qualifier, name) ← propertyName
      if (← get).rest.take 2 = [':', ']'] then
        skip 2
        return some (.property (← lookUp qualifier name true) (!negated))
      else return none : Read (Option Escaped)) s fun found s' =>
        (found = none → namedFrom start t = 0) ∧
          (found ≠ none → s'.rest = t.drop (namedFrom start t)) := by
  refine propertyName_ends.bind ?_
  intro name s₁ same
  have stop : s₁.rest = t.drop (start + propertyLength (t.drop start)) := by
    rw [same, Source.past_rest, begins, List.drop_drop]
  rw [ensures_bind, ensures_get, ensures_ite, stop]
  unfold namedFrom
  constructor
  · intro ends
    rw [ensures_bind, ensures_skip, if_pos ends]
    refine (lookUp_stays _ _ _).bind ?_
    intro property s₂ last
    rw [ensures_pure, last, Source.past_rest, stop, List.drop_drop]
    exact ⟨fun absent => absurd absent (by simp), fun _ => rfl⟩
  · intro other
    rw [ensures_pure, if_neg other]
    exact ⟨fun _ => rfl, fun some => absurd rfl some⟩

theorem namedClass_ends :
    Ensures namedClass s fun found s' =>
      (found = none → namedLength (':' :: s.rest) = 0) ∧
        (found ≠ none → s'.rest = (':' :: s.rest).drop (namedLength (':' :: s.rest))) := by
  have length : namedLength (':' :: s.rest) =
      namedFrom (if s.rest.head? = some '^' then 2 else 1) (':' :: s.rest) := by
    simp [namedLength]
  unfold namedClass
  rw [ensures_bind, ensures_accept, length]
  constructor
  · intro more next
    rw [if_pos (by rw [next]; rfl)]
    exact namedFrom_ends true (by rw [Source.past_rest]; rfl)
  · intro other
    rw [if_neg other]
    exact namedFrom_ends false rfl

theorem plainItem_members (s₁ : Source) (noEscape : s.rest.head? ≠ some '\\')
    (unnamed : s.rest.head? = some '[' → namedLength (s.rest.drop 1) = 0) :
    Ensures (do
      set s
      match ← next? with
      | some c => return Escaped.code c.toNat
      | none => fail .unterminatedClass : Read Escaped) s₁ fun _ s' => Members s.rest s'.rest := by
  rw [ensures_bind, ensures_set, ensures_bind, ensures_next]
  constructor
  · intro c more next
    rw [ensures_pure, Source.past_rest]
    rw [next] at noEscape unnamed ⊢
    intro depth first fits
    have slash : c ≠ '\\' := fun same => noEscape (by simp [same])
    have ends : ¬ (c = ']' ∧ first = false) := by
      rintro ⟨same, later⟩
      rw [fits (by simp [same])] at later
      cases later
    by_cases bracket : c = '['
    · have unnamed : namedLength more = 0 := unnamed (by simp [bracket])
      simp [closing, bracket, unnamed]
    · simp [closing, slash, ends, bracket]
  · intro _
    exact ensures_fail _

theorem classItem_members :
    Ensures (classItem flags) s fun _ s' => Members s.rest s'.rest := by
  unfold classItem
  rw [ensures_bind, ensures_accept]
  constructor
  · intro more next
    rw [if_pos rfl]
    refine escapeInClass_past.mono ?_
    intro _ s' escaped depth first _
    obtain ⟨c, later, here, far⟩ := escaped
    have same : more = c :: later := by simpa [next] using here
    rw [next, same, ← far.members depth]
    simp [closing]
  · intro noEscape
    rw [if_neg (by decide), ensures_bind, ensures_get]
    dsimp only
    rw [ensures_ite, ensures_bind, ensures_bind, ensures_skip, ensures_bind, ensures_pure]
    constructor
    · intro opening
      obtain ⟨more, next⟩ : ∃ more, s.rest = '[' :: ':' :: more := by
        refine ⟨s.rest.drop 2, ?_⟩
        conv_lhs => rw [← List.take_append_drop 2 s.rest, opening]
        rfl
      refine namedClass_ends.mono ?_
      intro found s₁ ends
      have after : ':' :: (s.past 2).rest = s.rest.drop 1 := by rw [Source.past_rest, next]; rfl
      rw [after] at ends
      cases found with
      | none => exact plainItem_members s₁ noEscape fun _ => ends.1 rfl
      | some e =>
        rw [ensures_pure]
        intro depth first _
        rw [ends.2 (by simp), ← closing_skip, next]
        simp [closing]
    · intro plain
      apply plainItem_members s noEscape
      intro bracket
      obtain ⟨more, next⟩ := List.head?_eq_some_iff.mp bracket
      have noColon : more.head? ≠ some ':' := by
        intro colon
        obtain ⟨later, here⟩ := List.head?_eq_some_iff.mp colon
        exact plain (by rw [next, here]; rfl)
      rw [next, List.drop_one, List.tail_cons, namedLength, if_neg noColon]

theorem classMember_members :
    Ensures (classMember flags) s fun _ s' => Members s.rest s'.rest := by
  unfold classMember
  refine classItem_members.bind ?_
  intro item s₁ low
  cases item with
  | property p positive => exact ensures_pure.mpr low
  | code first =>
    dsimp only
    rw [ensures_bind, ensures_accept]
    constructor
    · intro more next
      have hyphen (depth : Nat) : closing depth (.members false) 0 s₁.rest =
          closing depth (.members false) 0 (s₁.past 1).rest := by
        simp [next, closing]
      rw [if_neg (by decide), ensures_bind, ensures_get, ensures_ite]
      constructor
      · intro _
        rw [ensures_pure]
        intro depth first fits
        exact (low depth first fits).trans (hyphen depth)
      · intro noEnd
        refine classItem_members.bind ?_
        intro last s₂ high
        have both : Members s.rest s₂.rest := by
          intro depth first fits
          rw [low depth first fits, hyphen depth]
          exact high depth false fun ends => absurd ends noEnd
        cases last with
        | property p positive => exact ensures_pure.mpr both
        | code last =>
          dsimp only
          refine ensures_guard (ensures_fail _) ?_
          intro _
          exact ensures_pure.mpr both
    · intro _
      exact ensures_pure.mpr low

theorem classMembers_ends (fuel : Nat) (members : List Member) :
    Ensures (classMembers flags fuel members) s fun _ s' => ∀ depth first,
      (s.rest.head? = some ']' → first = true) →
        closing depth (.members first) 0 s.rest = closing depth .pattern 0 s'.rest := by
  induction fuel generalizing s members with
  | zero => exact ensures_fail _
  | succ fuel ih =>
    unfold classMembers
    refine classMember_members.bind ?_
    intro more s₁ member
    dsimp only
    rw [ensures_bind, ensures_accept]
    constructor
    · intro later next
      rw [if_pos rfl, ensures_pure]
      intro depth first fits
      rw [member depth first fits, next, Source.past_rest, next]
      simp [closing]
    · intro noEnd
      rw [if_neg (by decide)]
      refine (ih _).mono ?_
      intro _ s₂ rest depth first fits
      exact (member depth first fits).trans (rest depth false fun ends => absurd ends noEnd)

theorem charClass_balanced :
    Ensures (charClass flags) s fun _ s' => Balanced ('[' :: s.rest) s'.rest := by
  unfold charClass
  rw [ensures_bind, ensures_accept]
  constructor
  · intro more next
    rw [ensures_bind, ensures_get]
    refine (classMembers_ends _ _).bind ?_
    intro _ s₁ ends
    rw [ensures_pure]
    intro depth
    rw [← ends depth true fun _ => rfl, next, Source.past_rest, next]
    simp [closing]
  · intro other
    rw [ensures_bind, ensures_get]
    refine (classMembers_ends _ _).bind ?_
    intro _ s₁ ends
    rw [ensures_pure]
    intro depth
    rw [← ends depth true fun _ => rfl]
    simp [closing, other]

/-! ### Comments -/

theorem comment_ends (fuel : Nat) :
    Ensures (comment fuel) s fun _ s' =>
      ∀ depth, closing depth .comment 0 s.rest = closing depth .pattern 0 s'.rest := by
  have done (s : Source) : Ensures (expect ')') s fun _ s' =>
      ∀ depth, closing depth .comment 0 s.rest = closing depth .pattern 0 s'.rest :=
    ensures_expect.mpr fun more next depth => by simp [next, closing]
  induction fuel generalizing s with
  | zero => exact done s
  | succ fuel ih =>
    unfold comment
    rw [ensures_bind, ensures_get]
    split
    · exact done s
    · exact done s
    · rename_i more next
      rw [ensures_bind, ensures_skip]
      refine ih.mono ?_
      intro _ s₁ ends depth
      rw [← ends depth, next, Source.past_rest, next]
      simp [closing, closing_skip depth 1]
    · rename_i nonempty noEnd noSlash
      rw [ensures_bind, ensures_skip]
      refine ih.mono ?_
      intro _ s₁ ends depth
      rw [← ends depth]
      cases next : s.rest with
      | nil => exact absurd next nonempty
      | cons c more =>
        have ends : c ≠ ')' := fun same => noEnd more (by rw [next, same])
        have slash : c ≠ '\\' := fun same => noSlash more (by rw [next, same])
        simp [closing, next, ends, slash]

/-! ### Patterns -/

/-- Alternatives end at a parenthesis that they do not open, or at the end of the text. -/
def EndsAlternatives (t u : Text) : Prop := Balanced t u ∧ (u = [] ∨ u.head? = some ')')

def EndsElements (t u : Text) : Prop :=
  Balanced t u ∧ (u = [] ∨ u.head? = some ')' ∨ u.head? = some '|')

theorem EndsElements.after {t u v : Text} (ends : EndsElements u v) (balanced : Balanced t u) :
    EndsElements t v :=
  ⟨fun depth => (balanced depth).trans (ends.1 depth), ends.2⟩

variable {w : WholeFlags} {fuel : Nat}

theorem closed_closes {t : Text} (far : Past t s.rest)
    (inner : Ensures (alternatives w flags fuel) s fun _ s' =>
      EndsAlternatives s.rest s'.rest) :
    Ensures (do
      let (p, _) ← alternatives w flags fuel
      expect ')'
      return p : Read Pattern) s fun _ s' => Closes t s'.rest := by
  refine inner.bind ?_
  intro p s₁ ends
  rw [ensures_bind, ensures_expect]
  intro more next
  rw [ensures_pure, Source.past_rest, next]
  intro depth
  rw [far.balanced, ends.1, next]
  exact Closes.of_parenthesis more depth

theorem named_closes {t : Text} (far : Past t s.rest)
    (inner : ∀ s, Ensures (alternatives w flags fuel) s fun _ s' =>
      EndsAlternatives s.rest s'.rest) :
    Ensures (do
      match ← groupName false with
      | .name u =>
        let n ← openGroup (some u)
        expect '>'
        let p ← (do
          let (p, _) ← alternatives w flags fuel
          expect ')'
          return p : Read Pattern)
        closeGroup
        return .element (.group n p)
      | .number _ => fail .badGroupName : Read Bracketed) s
      fun _ s' => Closes t s'.rest := by
  refine (groupName_past false far).bind ?_
  intro ref s₁ far₁
  cases ref with
  | number n => exact ensures_fail _
  | name u =>
    dsimp only
    refine (openGroup_rest (some u)).bind ?_
    intro n s₂ same
    rw [← same] at far₁
    refine (expect_past far₁ (by decide)).bind ?_
    intro _ s₃ far₃
    refine (closed_closes far₃ (inner s₃)).bind ?_
    intro p s₄ closes
    refine closeGroup_rest.bind ?_
    intro _ s₅ same
    rw [ensures_pure]
    rw [same]
    exact closes

theorem flagged_closes {t : Text} (far : Past t s.rest)
    (inner : ∀ flags s, Ensures (alternatives w flags fuel) s fun _ s' =>
      EndsAlternatives s.rest s'.rest) :
    Ensures (do
      let (on, off) ← flagSets
      if off.any Flag.isGlobal then fail .globalFlagOff
      else if on.any (fun f => f ∈ off) then fail .flagOnAndOff
      else
        requireWhole w on
        let on := on.filter fun f => !f.isGlobal
        if ← accept ':' then return .element (← (do
          let (p, _) ← alternatives w (flags.inPart on off) fuel
          expect ')'
          return p : Read Pattern))
        else if ← accept ')' then return .flags (flags.turned on off)
        else fail .unknownExtension : Read Bracketed) s
      fun _ s' => Closes t s'.rest := by
  refine (flagSets_past far).bind ?_
  intro flagPair s₁ far₁
  obtain ⟨on, off⟩ := flagPair
  dsimp only
  refine ensures_guard (ensures_fail _) ?_
  intro _
  refine ensures_guard (ensures_fail _) ?_
  intro _
  refine (requireWhole_stays _ _).bind ?_
  intro _ s₂ same
  rw [← same] at far₁
  rw [ensures_bind, ensures_accept]
  constructor
  · intro more next
    rw [if_pos rfl]
    refine (closed_closes (past_next far₁ next (by decide)) (inner _ _)).bind ?_
    intro p s₃ closes
    exact ensures_pure.mpr closes
  · intro _
    rw [if_neg (by decide), ensures_bind, ensures_accept]
    constructor
    · intro more next
      rw [if_pos rfl, ensures_pure]
      intro depth
      rw [far₁.balanced, Source.past_rest, next]
      exact Closes.of_parenthesis more depth
    · intro _
      rw [if_neg (by decide)]
      exact ensures_fail _

theorem reference_closes {t : Text} (position : Nat) (far : Past t s.rest) :
    Ensures (do
      let ref ← groupName true
      expect ')'
      if ← isOpen ref then failAt .openGroup position
      else return .element (← refer flags ref position) : Read Bracketed) s
      fun _ s' => Closes t s'.rest := by
  refine (groupName_past true far).bind ?_
  intro ref s₁ far₁
  rw [ensures_bind, ensures_expect]
  intro later next
  refine (isOpen_stays ref).bind ?_
  intro opened s₂ same
  rw [same]
  refine ensures_guard (ensures_failAt _ _) ?_
  intro closed
  refine (refer_past ref _ (Past.here _)).bind ?_
  intro p s₃ far₃
  rw [ensures_pure]
  intro depth
  rw [far₁.balanced, next, ← far₃.balanced, Source.past_rest, next]
  exact Closes.of_parenthesis later depth

/-- A group of any kind but a comment, around one pattern. -/
theorem marked_balanced {more : Text} {n : Nat} (far : Past more (s.past n).rest)
    (inner : ∀ s, Ensures (alternatives w flags fuel) s fun _ s' =>
      EndsAlternatives s.rest s'.rest)
    (noComment : more.head? ≠ some '#') (g : Pattern → Bracketed) :
    Ensures (do
      skip n
      let p ← (do
        let (p, _) ← alternatives w flags fuel
        expect ')'
        return p : Read Pattern)
      return g p) s fun _ s' => Balanced ('(' :: '?' :: more) s'.rest := by
  rw [ensures_bind, ensures_skip]
  refine (closed_closes far (inner _)).bind ?_
  intro p s₁ closes
  rw [ensures_pure]
  exact closes.extension noComment

/-- A parenthesis is read to the one that closes it. -/
theorem parenthesis_balanced
    (inner : ∀ flags s, Ensures (alternatives w flags fuel) s fun _ s' =>
      EndsAlternatives s.rest s'.rest) :
    Ensures (parenthesis w flags (fuel + 1)) s fun _ s' =>
      Balanced ('(' :: s.rest) s'.rest := by
  rw [parenthesis]
  dsimp only
  rw [ensures_bind, ensures_accept]
  constructor
  · intro more next
    have saved : (s.past 1).rest = more := by rw [Source.past_rest, next]; rfl
    have start : Past more (s.past 1).rest := by rw [saved]; exact Past.here more
    have skipped (n : Nat) (far : Past more (more.drop n)) :
        Past more ((s.past 1).past n).rest := by
      rwa [Source.past_rest, saved]
    have group {n : Nat} (far : Past more (more.drop n)) (noComment : more.head? ≠ some '#')
        (g : Pattern → Bracketed) := marked_balanced (skipped n far) (inner flags) noComment g
    rw [if_pos rfl, ensures_bind, ensures_get, saved, next]
    split
    · exact group (Past.of_two (by decide) (by decide)) (by simp) _
    · exact group (Past.of_two (by decide) (by decide)) (by simp) _
    · rw [ensures_bind, ensures_skip]
      have name := skipped 1 (Past.step (by decide) (Past.here _))
      exact (named_closes name (inner flags)).mono fun _ _ closes => closes.extension (by simp)
    · exact group (Past.step (by decide) (Past.here _)) (by simp) _
    · exact group (Past.step (by decide) (Past.here _)) (by simp) _
    · rw [ensures_bind, ensures_skip]
      have name := skipped 2 (Past.of_two (by decide) (by decide))
      exact (named_closes name (inner flags)).mono fun _ _ closes => closes.extension (by simp)
    · rw [ensures_bind, ensures_skip]
      have name := skipped 2 (Past.of_two (by decide) (by decide))
      exact (reference_closes _ name).mono fun _ _ closes => closes.extension (by simp)
    · exact ensures_failAt _ _
    · rw [ensures_bind, ensures_skip]
      refine (comment_ends _).bind ?_
      intro _ s₁ comment
      rw [ensures_pure]
      intro depth
      rw [← comment depth, Source.past_rest, saved]
      simp [closing]
    · exact group (Past.step (by decide) (Past.here _)) (by simp) _
    · rename_i noComment _
      refine (flagged_closes start inner).mono ?_
      intro p s₁ closes
      refine closes.extension fun mark => ?_
      obtain ⟨later, here⟩ := List.head?_eq_some_iff.mp mark
      exact noComment later here
  · intro other
    rw [if_neg (by decide)]
    refine (openGroup_rest none).bind ?_
    intro n s₁ same
    have far : Past s.rest s₁.rest := by rw [same]; exact Past.here _
    refine (closed_closes far (inner flags s₁)).bind ?_
    intro p s₂ closes
    refine closeGroup_rest.bind ?_
    intro _ s₃ last
    rw [ensures_pure, last]
    exact closes.capture other

/-- One more element does not move the parenthesis, so it stays where the rest leaves it. -/
theorem elements_balanced
    (group : ∀ flags s, Ensures (parenthesis w flags fuel) s fun _ s' =>
      Balanced ('(' :: s.rest) s'.rest)
    (later : ∀ flags before s, Ensures (elements w flags fuel before) s fun _ s' =>
      EndsElements s.rest s'.rest) (before : List (Option Pattern)) :
    Ensures (elements w flags (fuel + 1) before) s fun _ s' => EndsElements s.rest s'.rest := by
  have go {t : Text} {s₁ : Source} (balanced : Balanced t s₁.rest) (flags : Flags)
      (before : List (Option Pattern)) :
      Ensures (elements w flags fuel before) s₁ fun _ s' => EndsElements t s'.rest :=
    (later flags before s₁).mono fun _ _ ends => ends.after balanced
  rw [elements, ensures_bind, ensures_get, ensures_bind, ensures_get]
  cases next : s.rest with
  | nil => exact ensures_pure.mpr ⟨fun _ => by rw [next], Or.inl next⟩
  | cons c more =>
    have after : (s.past 1).rest = more := by rw [Source.past_rest, next]; rfl
    dsimp only
    rw [ensures_ite]
    refine ⟨fun mark => ensures_pure.mpr ?_, fun noMark => ?_⟩
    · rw [next]
      refine ⟨fun _ => rfl, Or.inr ?_⟩
      simpa using mark
    · have noEnd : c ≠ ')' := fun same => noMark (by simp [same])
      rw [ensures_bind, ensures_skip]
      by_cases slash : c = '\\'
      · rw [if_pos slash]
        refine escape_past.bind ?_
        intro p s₁ escaped
        refine go (fun depth => ?_) _ _
        obtain ⟨d, u, here, far⟩ := escaped
        rw [← far.balanced depth, ← after, here, slash]
        simp [closing]
      rw [if_neg slash]
      by_cases opens : c = '('
      · rw [if_pos opens, ensures_bind, opens, ← after]
        refine (group flags (s.past 1)).mono ?_
        intro p s₁ balanced
        cases p with
        | element p => exact go balanced _ _
        | flags later => exact go balanced _ _
      rw [if_neg opens]
      have single (noBracket : c ≠ '[') : Balanced (c :: more) (s.past 1).rest := by
        intro depth
        rw [after]
        simp [closing, slash, opens, noEnd, noBracket]
      by_cases dot : c = '.'
      · rw [if_pos dot]
        exact go (single (by rw [dot]; decide)) _ _
      rw [if_neg dot]
      by_cases bracket : c = '['
      · rw [if_pos bracket, ensures_bind, bracket, ← after]
        refine charClass_balanced.mono ?_
        intro p s₁ balanced
        exact go balanced _ _
      rw [if_neg bracket]
      have plain := single bracket
      -- Whatever is left takes the one character, and a repeat no bracket after it.
      by_cases caret : c = '^'
      · rw [if_pos caret]
        exact go plain _ _
      rw [if_neg caret]
      by_cases dollar : c = '$'
      · rw [if_pos dollar]
        exact go plain _ _
      rw [if_neg dollar, ensures_ite]
      constructor
      · intro repeats
        refine (repeatCounts_past c (Past.here _)).bind ?_
        intro counts s₁ far
        have counted (depth : Nat) := (plain depth).trans (far.balanced depth)
        cases counts with
        | none => exact go counted _ _
        | some counts =>
          dsimp only
          refine (repeatLast_past _ counts before (Past.here _)).bind ?_
          intro repeated s₂ far₂
          exact go (fun depth => (counted depth).trans (far₂.balanced depth)) _ _
      · intro letter
        exact go plain _ _

theorem alternatives_balanced
    (first : ∀ flags before s, Ensures (elements w flags fuel before) s fun _ s' =>
      EndsElements s.rest s'.rest)
    (later : ∀ flags s, Ensures (alternatives w flags fuel) s fun _ s' =>
      EndsAlternatives s.rest s'.rest) :
    Ensures (alternatives w flags (fuel + 1)) s fun _ s' =>
      EndsAlternatives s.rest s'.rest := by
  rw [alternatives]
  refine (first flags [none] s).bind ?_
  intro p s₁ ends
  rw [ensures_bind, ensures_accept]
  constructor
  · intro more next
    rw [if_pos rfl]
    refine (later p.2 (s₁.past 1)).bind ?_
    intro q s₂ rest
    refine ensures_pure.mpr ⟨fun depth => ?_, rest.2⟩
    rw [ends.1 depth, ← rest.1 depth, Source.past_rest, next]
    simp [closing]
  · intro noBar
    rw [if_neg (by decide), ensures_pure]
    refine ⟨ends.1, ?_⟩
    rcases ends.2 with finished | closes | bar
    · exact Or.inl finished
    · exact Or.inr closes
    · exact absurd bar noBar

theorem reading_balanced (w : WholeFlags) (fuel : Nat) :
    (∀ flags s, Ensures (alternatives w flags fuel) s fun _ s' =>
        EndsAlternatives s.rest s'.rest) ∧
      (∀ flags before s, Ensures (elements w flags fuel before) s fun _ s' =>
        EndsElements s.rest s'.rest) ∧
      ∀ flags s, Ensures (parenthesis w flags fuel) s fun _ s' =>
        Balanced ('(' :: s.rest) s'.rest := by
  induction fuel with
  | zero =>
    refine ⟨fun flags s => ?_, fun flags before s => ?_, fun flags s => ?_⟩
    · rw [alternatives]
      exact ensures_fail _
    · rw [elements]
      exact ensures_fail _
    · rw [parenthesis]
      exact ensures_fail _
  | succ fuel ih =>
    obtain ⟨inner, row, group⟩ := ih
    exact ⟨fun flags s => alternatives_balanced row inner,
      fun flags before s => elements_balanced group row before,
      fun flags s => parenthesis_balanced inner⟩

/-- What is read inside of a parenthesis that is put around a closed text is that text. -/
theorem alternatives_closed {t more : Text} (closed : Closed t) (next : s.rest = t ++ ')' :: more) :
    Ensures (alternatives w flags fuel) s fun _ s' => s'.rest = ')' :: more := by
  refine ((reading_balanced w fuel).1 flags s).mono ?_
  intro p s' ends
  have found := closing_of_closed closed more
  rw [← next, ends.1 0] at found
  rcases ends.2 with finished | closes
  · rw [finished] at found
    cases found
  · obtain ⟨later, here⟩ := List.head?_eq_some_iff.mp closes
    rw [here] at found ⊢
    simpa [closing] using found

end Read
end SoundLaw.Regex
