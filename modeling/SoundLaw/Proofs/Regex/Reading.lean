import SoundLaw.Regex.Reader
import SoundLaw.Regex.Literal
import Mathlib.Data.List.Basic

/-!
Texts whose reading as a pattern is known piece by piece: letters, escaped texts, alternatives
in a group. A piece has enough fuel when four steps are left for each of its characters, so
pieces can stand one after the other and inside one another.
-/
namespace SoundLaw.Regex

def Source.past (s : Source) (n : Nat) : Source :=
  { s with rest := s.rest.drop n, position := s.position + n }

namespace Source

@[simp] theorem past_rest (s : Source) (n : Nat) : (s.past n).rest = s.rest.drop n := rfl

@[simp] theorem past_zero (s : Source) : s.past 0 = s := by simp [past]

@[simp] theorem past_past (s : Source) (m n : Nat) : (s.past m).past n = s.past (m + n) := by
  simp [past, Nat.add_assoc]

theorem past_over {s : Source} {t more : Text} (h : s.rest = t ++ more) :
    (s.past t.length).rest = more := by simp [h]

end Source

def isSyntax (c : Char) : Bool :=
  c ∈ ['\\', '^', '$', '.', '|', '?', '*', '+', '(', ')', '[', ']', '\x7b', '\x7d']

def letter (flags : Flags) (c : Char) : Pattern := .one (.code c.toNat flags.ignoresCase)

def anyOf (flags : Flags) : List Text → Pattern
  | [] => .empty
  | [t] => .ofList (t.map (letter flags))
  | t :: rest => .alt (.ofList (t.map (letter flags))) (anyOf flags rest)

theorem letter_congr {flags flags' : Flags} (same : flags.ignoresCase = flags'.ignoresCase) :
    letter flags = letter flags' := by
  funext c
  rw [letter, letter, same]

theorem anyOf_congr {flags flags' : Flags} (same : flags.ignoresCase = flags'.ignoresCase)
    (l : List Text) : anyOf flags l = anyOf flags' l := by
  induction l with
  | nil => rfl
  | cons t rest ih =>
    cases rest with
    | nil => rw [anyOf, anyOf, letter_congr same]
    | cons u l =>
      change Pattern.alt _ (anyOf flags (u :: l)) = Pattern.alt _ (anyOf flags' (u :: l))
      rw [ih, letter_congr same]

theorem escaped_not_alphanumeric {c : Char} (h : (isSpecial c || isBlank c) = true) :
    c.isAlphanum = false := by
  rcases Bool.or_eq_true _ _ |>.mp h with special | blank
  · simp only [isSpecial, decide_eq_true_eq, List.mem_cons, List.not_mem_nil, or_false] at special
    rcases special with e | e | e | e | e | e | e | e | e | e | e | e | e | e | e | e | e | e <;>
      subst e <;> decide
  · simp only [isBlank, blankRanges, List.any_cons, List.any_nil, Bool.or_false, Bool.or_eq_true,
      Bool.and_eq_true, decide_eq_true_eq, Char.toNat] at blank
    by_contra alnum
    have kinds : c.isAlphanum = ((decide (65 ≤ c.val ∧ c.val ≤ 90) ||
        decide (97 ≤ c.val) && decide (c.val ≤ 122)) ||
          decide (48 ≤ c.val) && decide (c.val ≤ 57)) := rfl
    simp only [Bool.not_eq_false, kinds, UInt32.le_iff_toNat_le, Bool.or_eq_true,
      Bool.and_eq_true, decide_eq_true_eq] at alnum
    change ((65 ≤ c.val.toNat ∧ c.val.toNat ≤ 90) ∨ (97 ≤ c.val.toNat ∧ c.val.toNat ≤ 122)) ∨
      (48 ≤ c.val.toNat ∧ c.val.toNat ≤ 57) at alnum
    omega

namespace Read
variable {α β : Type}

/-! ### Steps of the reader -/

theorem bind_apply (m : Read α) (f : α → Read β) (s : Source) :
    (m >>= f) s = match m s with
      | .ok (a, s') => f a s'
      | .error e => .error e := by
  show StateT.bind m f s = _
  unfold StateT.bind
  cases m s <;> rfl

theorem pure_apply (a : α) (s : Source) : (pure a : Read α) s = .ok (a, s) := rfl

theorem map_apply (f : α → β) (m : Read α) (s : Source) :
    (f <$> m) s = match m s with
      | .ok (a, s') => .ok (f a, s')
      | .error e => .error e := by
  show StateT.map f m s = _
  unfold StateT.map
  cases m s <;> rfl

theorem get_apply (s : Source) : (get : Read Source) s = .ok (s, s) := rfl

theorem skip_apply (n : Nat) (s : Source) : skip n s = .ok ((), s.past n) := rfl

theorem next_apply {s : Source} {c : Char} {more : Text} (h : s.rest = c :: more) :
    next? s = .ok (some c, s.past 1) := by
  simp [next?, bind_apply, map_apply, get_apply, h, skip_apply]

theorem accept_next {s : Source} {c : Char} {more : Text} (h : s.rest = c :: more) :
    accept c s = .ok (true, s.past 1) := by
  simp [accept, bind_apply, map_apply, get_apply, h, skip_apply]

theorem accept_other {s : Source} {c : Char} (h : s.rest.head? ≠ some c) :
    accept c s = .ok (false, s) := by
  simp [accept, bind_apply, get_apply, h, pure_apply]

theorem expect_next {s : Source} {c : Char} {more : Text} (h : s.rest = c :: more) :
    expect c s = .ok ((), s.past 1) := by
  simp [expect, bind_apply, accept_next h, pure_apply]

/-! ### Single elements -/

variable {w : WholeFlags} {flags : Flags} {fuel : Nat} {before : List (Option Pattern)} {s : Source}
  {more : Text}

theorem elements_letter {c : Char} (ordinary : isSyntax c = false) (h : s.rest = c :: more) :
    elements w flags (fuel + 1) before s =
      elements w flags fuel (some (letter flags c) :: before) (s.past 1) := by
  simp only [isSyntax, decide_eq_false_iff_not, List.mem_cons, not_or] at ordinary
  rw [elements]
  simp [bind_apply, get_apply, h, skip_apply, ordinary, letter]

theorem escape_letter {c : Char} (special : (isSpecial c || isBlank c) = true)
    (h : s.rest = c :: more) : escape flags s = .ok (letter flags c, s.past 1) := by
  have plain := escaped_not_alphanumeric special
  have named : ∀ d : Char, d.isAlphanum = true → c ≠ d := by
    intro d alnum same
    rw [same, alnum] at plain
    exact absurd plain (by decide)
  have notDigit : c.isDigit = false := by
    simp only [Char.isAlphanum, Bool.or_eq_false_iff] at plain
    exact plain.2
  have notAlpha : c.isAlpha = false := by
    simp only [Char.isAlphanum, Bool.or_eq_false_iff] at plain
    exact plain.1
  have noAnchor : anchorEscape? c = none := by
    unfold anchorEscape?
    split <;> first | rfl | exact absurd rfl (named _ (by decide))
  have shared : sharedEscape flags c = pure (.code c.toNat) := by
    unfold sharedEscape
    split <;> first | exact absurd rfl (named _ (by decide)) | simp [notAlpha]
  unfold escape
  simp [bind_apply, next_apply h, named 'g' (by decide), named 'R' (by decide), notDigit,
    noAnchor, shared, pure_apply, Escaped.pattern, letter]

theorem elements_escaped {c : Char} (special : (isSpecial c || isBlank c) = true)
    (h : s.rest = '\\' :: c :: more) :
    elements w flags (fuel + 1) before s =
      elements w flags fuel (some (letter flags c) :: before) (s.past 2) := by
  have next : (s.past 1).rest = c :: more := by simp [h]
  rw [elements]
  simp [bind_apply, get_apply, h, skip_apply, escape_letter special next]

theorem elements_stop (h : ∀ c, s.rest.head? = some c → c = ')' ∨ c = '|') :
    elements w flags (fuel + 1) before s = .ok ((finish before, flags), s) := by
  rw [elements]
  cases rest : s.rest with
  | nil => simp [bind_apply, get_apply, rest, pure_apply]
  | cons c more =>
    have mark := h c (by simp [rest])
    simp [bind_apply, get_apply, rest, mark, pure_apply]

theorem finish_elements (ps : List Pattern) :
    finish ((ps.map some).reverse ++ [none]) = .ofList ps := by
  simp [finish, List.filterMap_map]

/-! ### Brackets -/

section brackets
variable {p : Pattern} {left : Flags} {s' : Source} {later : Text}

theorem parenthesis_behind (h : s.rest = '?' :: '<' :: '=' :: more)
    (inner : alternatives w flags fuel (s.past 3) = .ok ((p, left), s'))
    (close : s'.rest = ')' :: later) :
    parenthesis w flags (fuel + 1) s = .ok (.element (.look true false p), s'.past 1) := by
  rw [parenthesis]
  simp [bind_apply, map_apply, accept_next h, get_apply, h, skip_apply, inner, expect_next close]

theorem parenthesis_ahead (h : s.rest = '?' :: '=' :: more)
    (inner : alternatives w flags fuel (s.past 2) = .ok ((p, left), s'))
    (close : s'.rest = ')' :: later) :
    parenthesis w flags (fuel + 1) s = .ok (.element (.look false false p), s'.past 1) := by
  rw [parenthesis]
  simp [bind_apply, map_apply, accept_next h, get_apply, h, skip_apply, inner, expect_next close]

theorem ignoresCase_inPart (flags : Flags) :
    (flags.inPart [] []).ignoresCase = flags.ignoresCase := by
  simp [Flags.inPart, Flags.ignoresCase, Flag.isKind]

theorem flagSets_none (h : s.rest = ':' :: more) : flagSets s = .ok (([], []), s) := by
  have none : ∀ fuel, flagSet fuel s = .ok ([], s) := by
    intro fuel
    cases fuel with
    | zero => rfl
    | succ fuel => simp [flagSet, bind_apply, get_apply, h, Flag.ofText?, pure_apply]
  have minus : accept '-' s = .ok (false, s) := accept_other (by simp [h])
  simp [flagSets, bind_apply, get_apply, none, minus, pure_apply]

theorem parenthesis_group (h : s.rest = '?' :: ':' :: more)
    (inner : alternatives w (flags.inPart [] []) fuel (s.past 2) = .ok ((p, left), s'))
    (close : s'.rest = ')' :: later) :
    parenthesis w flags (fuel + 1) s = .ok (.element p, s'.past 1) := by
  have colon : (s.past 1).rest = ':' :: more := by simp [h]
  have nothing : requireWhole w [] (s.past 1) = .ok ((), s.past 1) := rfl
  rw [parenthesis]
  simp [bind_apply, map_apply, accept_next h, get_apply, h, flagSets_none colon, nothing,
    accept_next colon, inner, expect_next close]

theorem elements_open (h : s.rest = '(' :: more)
    (group : parenthesis w flags fuel (s.past 1) = .ok (.element p, s')) :
    elements w flags (fuel + 1) before s =
      elements w flags fuel (some p :: before) s' := by
  rw [elements]
  simp [bind_apply, get_apply, h, skip_apply, group]

end brackets

/-! ### Pieces of a pattern -/

/-- The text is read as these patterns, one after the other, wherever it stands. -/
structure Reads (flags : Flags) (t : Text) (ps : List Pattern) : Prop where
  short : ps.length ≤ t.length
  reads : ∀ w fuel before s more, 4 * t.length ≤ fuel → s.rest = t ++ more →
    elements w flags fuel before s =
      elements w flags (fuel - ps.length) ((ps.map some).reverse ++ before) (s.past t.length)

theorem reads_nil (flags : Flags) : Reads flags [] [] where
  short := Nat.le_refl _
  reads := by simp

theorem reads_append {t u : Text} {ps qs : List Pattern} (first : Reads flags t ps)
    (second : Reads flags u qs) : Reads flags (t ++ u) (ps ++ qs) where
  short := by
    have h1 := first.short
    have h2 := second.short
    simp only [List.length_append]
    omega
  reads := by
    intro w fuel before s more enough h
    have h1 := first.short
    simp only [List.length_append] at enough
    have between : (s.past t.length).rest = u ++ more :=
      Source.past_over (by simpa using h)
    rw [first.reads w fuel before s (u ++ more) (by omega) (by simpa using h),
      second.reads w _ _ _ more (by omega) between]
    simp [Nat.sub_sub]

theorem reads_letter {c : Char} (ordinary : isSyntax c = false) :
    Reads flags [c] [letter flags c] where
  short := Nat.le_refl _
  reads := by
    intro w fuel before s more enough h
    obtain ⟨fuel, rfl⟩ : ∃ k, fuel = k + 1 := ⟨fuel - 1, by simp at enough; omega⟩
    exact elements_letter ordinary h

theorem reads_escaped {c : Char} (special : (isSpecial c || isBlank c) = true) :
    Reads flags ['\\', c] [letter flags c] where
  short := by simp
  reads := by
    intro w fuel before s more enough h
    obtain ⟨fuel, rfl⟩ : ∃ k, fuel = k + 1 := ⟨fuel - 1, by simp at enough; omega⟩
    exact elements_escaped special h

theorem ordinary_of_not_special {c : Char} (h : isSpecial c = false) : isSyntax c = false := by
  by_contra syn
  simp only [Bool.not_eq_false, isSyntax, decide_eq_true_eq, List.mem_cons, List.not_mem_nil,
    or_false] at syn
  rcases syn with e | e | e | e | e | e | e | e | e | e | e | e | e | e <;> subst e <;>
    exact absurd h (by decide)

theorem reads_literal (flags : Flags) (t : Text) :
    Reads flags (escapeText t) (t.map (letter flags)) := by
  induction t with
  | nil => exact reads_nil flags
  | cons c rest ih =>
    have split : escapeText (c :: rest) =
        (if isSpecial c || isBlank c then ['\\', c] else [c]) ++ escapeText rest := rfl
    have first : Reads flags (if isSpecial c || isBlank c then ['\\', c] else [c])
        [letter flags c] := by
      split
      · rename_i special
        exact reads_escaped special
      · rename_i plain
        simp only [Bool.or_eq_true, not_or, Bool.not_eq_true] at plain
        exact reads_letter (ordinary_of_not_special plain.1)
    rw [split]
    exact reads_append first ih

/-! ### Alternatives -/

theorem first_alternative (w : WholeFlags) (fuel : Nat) {t : Text} {ps : List Pattern} (r : Reads flags t ps)
    (enough : 4 * t.length + 1 ≤ fuel) (h : s.rest = t ++ more)
    (stop : ∀ c, more.head? = some c → c = ')' ∨ c = '|') :
    elements w flags fuel [none] s = .ok ((.ofList ps, flags), s.past t.length) := by
  have short := r.short
  have rest : (s.past t.length).rest = more := Source.past_over h
  obtain ⟨k, left⟩ : ∃ k, fuel - ps.length = k + 1 := ⟨fuel - ps.length - 1, by omega⟩
  rw [r.reads w fuel [none] s more (by omega) h, left, ← finish_elements]
  exact elements_stop (by rwa [rest])

theorem alternatives_single (w : WholeFlags) (fuel : Nat) {t : Text} {ps : List Pattern} (r : Reads flags t ps)
    (enough : 4 * t.length + 2 ≤ fuel) (h : s.rest = t ++ more)
    (stop : ∀ c, more.head? = some c → c = ')') :
    alternatives w flags fuel s = .ok ((.ofList ps, flags), s.past t.length) := by
  obtain ⟨fuel, rfl⟩ : ∃ k, fuel = k + 1 := ⟨fuel - 1, by omega⟩
  have first := first_alternative w fuel r (by omega) h fun c hc => Or.inl (stop c hc)
  have noBar : accept '|' (s.past t.length) = .ok (false, s.past t.length) := by
    apply accept_other
    rw [Source.past_over h]
    intro bar
    exact absurd (stop _ bar) (by decide)
  rw [alternatives]
  simp [bind_apply, first, noBar, pure_apply]

theorem intercalate_two (sep t u : Text) (l : List Text) :
    List.intercalate sep (t :: u :: l) = t ++ (sep ++ List.intercalate sep (u :: l)) := by
  simp [List.intercalate]

/-- Escaped texts between bars are read as their alternatives, up to where the text ends or a
parenthesis closes them. -/
theorem alternatives_texts (w : WholeFlags) (flags : Flags) (fuel : Nat) (l : List Text)
    (some : l ≠ []) (s : Source)
    (enough : 4 * (List.intercalate ['|'] (l.map escapeText)).length + 2 ≤ fuel)
    (h : s.rest = List.intercalate ['|'] (l.map escapeText) ++ more)
    (stop : ∀ c, more.head? = Option.some c → c = ')') :
    alternatives w flags fuel s =
      .ok ((anyOf flags l, flags), s.past (List.intercalate ['|'] (l.map escapeText)).length) := by
  induction l generalizing fuel s with
  | nil => exact absurd rfl some
  | cons t rest ih =>
    cases rest with
    | nil =>
      simp only [List.map_cons, List.map_nil, List.intercalate_singleton] at enough h ⊢
      exact alternatives_single w fuel (reads_literal flags t) enough h stop
    | cons u l =>
      simp only [List.map_cons] at ih enough h ⊢
      rw [intercalate_two] at enough h ⊢
      simp only [List.length_append, List.length_cons, List.length_nil] at enough ⊢
      obtain ⟨fuel, rfl⟩ : ∃ k, fuel = k + 1 := ⟨fuel - 1, by omega⟩
      have here : s.rest = escapeText t ++
          '|' :: (List.intercalate ['|'] (escapeText u :: l.map escapeText) ++ more) := by
        simpa using h
      have first := first_alternative w fuel (reads_literal flags t) (by omega) here (by simp)
      have bar := Source.past_over here
      have others := ih fuel (by simp) (s.past ((escapeText t).length + 1)) (by omega)
        (by rw [← Source.past_past, Source.past_rest, bar]; simp)
      rw [alternatives]
      simp [bind_apply, map_apply, first, accept_next bar, others, anyOf, Nat.add_assoc]

theorem reads_parenthesis (mark : Text) {t : Text} {p : Pattern}
    (inside : ∀ w fuel s more, 4 * t.length + 2 ≤ fuel → s.rest = mark ++ (t ++ ')' :: more) →
      parenthesis w flags (fuel + 1) s =
        .ok (.element p, ((s.past mark.length).past t.length).past 1)) :
    Reads flags ('(' :: (mark ++ (t ++ [')']))) [p] where
  short := by simp
  reads := by
    intro w fuel before s more enough h
    simp only [List.length_cons, List.length_append, List.length_nil] at enough ⊢
    obtain ⟨fuel, rfl⟩ : ∃ k, fuel = k + 2 := ⟨fuel - 2, by omega⟩
    have body : (s.past 1).rest = mark ++ (t ++ ')' :: more) := by simp [h]
    have group := inside w fuel (s.past 1) more (by omega) body
    rw [elements_open (by simpa using h) group]
    simp only [Source.past_past, List.map_cons, List.map_nil, List.reverse_singleton,
      List.singleton_append]
    congr 2
    omega

/-- A group of texts is read as one pattern that tries them in their order. -/
theorem reads_group (flags : Flags) (l : List Text) (some : l ≠ []) :
    Reads flags ('(' :: '?' :: ':' :: (List.intercalate ['|'] (l.map escapeText) ++ [')']))
      [anyOf flags l] := by
  refine reads_parenthesis ['?', ':'] ?_
  intro w fuel s more enough h
  have body : (s.past 2).rest = List.intercalate ['|'] (l.map escapeText) ++ ')' :: more := by
    rw [Source.past_rest, h]
    rfl
  have inner := alternatives_texts w (flags.inPart [] []) fuel l some _ enough body (by simp)
  rw [anyOf_congr (ignoresCase_inPart flags)] at inner
  exact parenthesis_group h inner (Source.past_over body)

/-! ### Lookarounds and anchors -/

theorem reads_behind {t : Text} {ps : List Pattern} (r : Reads flags t ps) :
    Reads flags ('(' :: '?' :: '<' :: '=' :: (t ++ [')'])) [.look true false (.ofList ps)] := by
  refine reads_parenthesis ['?', '<', '='] ?_
  intro w fuel s more enough h
  have body : (s.past 3).rest = t ++ ')' :: more := by
    rw [Source.past_rest, h]
    rfl
  have inner := alternatives_single w fuel r enough body (by simp)
  exact parenthesis_behind h inner (Source.past_over body)

theorem reads_ahead {t : Text} {ps : List Pattern} (r : Reads flags t ps) :
    Reads flags ('(' :: '?' :: '=' :: (t ++ [')'])) [.look false false (.ofList ps)] := by
  refine reads_parenthesis ['?', '='] ?_
  intro w fuel s more enough h
  have body : (s.past 2).rest = t ++ ')' :: more := by
    rw [Source.past_rest, h]
    rfl
  have inner := alternatives_single w fuel r enough body (by simp)
  exact parenthesis_ahead h inner (Source.past_over body)

def startAnchor (flags : Flags) : Anchor := if Flag.multiline ∈ flags then .lineStart else .start

theorem elements_caret (h : s.rest = '^' :: more) :
    elements w flags (fuel + 1) before s =
      elements w flags fuel (some (.anchor (startAnchor flags)) :: before) (s.past 1) := by
  rw [elements]
  simp [bind_apply, get_apply, h, skip_apply, startAnchor]

theorem elements_finish (h : s.rest = '\\' :: 'Z' :: more) :
    elements w flags (fuel + 1) before s =
      elements w flags fuel (some (.anchor .finish) :: before) (s.past 2) := by
  have next : (s.past 1).rest = 'Z' :: more := by simp [h]
  rw [elements]
  simp [bind_apply, get_apply, h, skip_apply, escape, next_apply next, anchorEscape?, pure_apply]

theorem reads_caret (flags : Flags) : Reads flags ['^'] [.anchor (startAnchor flags)] where
  short := Nat.le_refl _
  reads := by
    intro w fuel before s more enough h
    obtain ⟨fuel, rfl⟩ : ∃ k, fuel = k + 1 := ⟨fuel - 1, by simp at enough; omega⟩
    exact elements_caret h

theorem reads_finish (flags : Flags) : Reads flags ['\\', 'Z'] [.anchor .finish] where
  short := by simp
  reads := by
    intro w fuel before s more enough h
    obtain ⟨fuel, rfl⟩ : ∃ k, fuel = k + 1 := ⟨fuel - 1, by simp at enough; omega⟩
    exact elements_finish h

end Read

/-! ### Whole patterns -/

theorem resolve_nil (p : Pattern) : p.resolve [] = p := by
  induction p with
  | again ref ignoreCase => cases ref <;> simp [Pattern.resolve]
  | _ => simp_all [Pattern.resolve]

theorem compile_whole {t : Text} {p : Pattern}
    (read : Read.whole .none t = .ok ((p, []), (Source.ofText t).past t.length)) : compile t = .ok p := by
  have noConflict : Flags.conflict? [] = none := by decide
  rw [compile, compileWith, read]
  simp [Source.past, Source.ofText, noConflict, Read.checkRefs, resolve_nil]

theorem compile_reads {t : Text} {ps : List Pattern} (r : Read.Reads [] t ps) :
    compile t = .ok (.ofList ps) := by
  have start : (Source.ofText t).rest = t ++ [] := (List.append_nil t).symm
  exact compile_whole (Read.alternatives_single .none _ r (by omega) start (by simp))

theorem compile_texts {l : List Text} (some : l ≠ []) :
    compile (List.intercalate ['|'] (l.map escapeText)) = .ok (anyOf [] l) := by
  have start (t : Text) : (Source.ofText t).rest = t ++ [] := (List.append_nil t).symm
  exact compile_whole (Read.alternatives_texts .none [] _ l some _ (by omega) (start _) (by simp))

end SoundLaw.Regex
