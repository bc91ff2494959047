import SoundLaw.Proofs.Rule.Scan

/-!
The boundary sign at the edge of a longer context. Only a context that is nothing but the sign asks
for an end of the word. Beside other parts the sign is a letter like others, which the word must
have at this place.
-/
namespace SoundLaw

variable {macros : Macros} {context text : Text} {parts : List Text}

theorem mem_spellings_append {first last : List (List Text)} :
    text ∈ spellings (first ++ last) ↔
      ∃ t ∈ spellings first, ∃ u ∈ spellings last, t ++ u = text := by
  induction first generalizing text with
  | nil => simp [spellings]
  | cons choices rest ih =>
    simp only [List.cons_append, spellings, List.mem_flatMap, List.mem_map, ih]
    constructor
    · rintro ⟨c, choice, _, ⟨t, left, u, right, rfl⟩, rfl⟩
      exact ⟨c ++ t, ⟨c, choice, t, left, rfl⟩, u, right, List.append_assoc c t u⟩
    · rintro ⟨_, ⟨c, choice, t, left, rfl⟩, u, right, rfl⟩
      exact ⟨c, choice, t ++ u, ⟨t, left, u, right, rfl⟩, (List.append_assoc c t u).symm⟩

namespace Macros

def spelledBy (macros : Macros) (parts : List Text) : List Text :=
  spellings (parts.map macros.usable.choices)

theorem spelledBy_sign (letter : boundary ∉ macros.usable.names) :
    macros.spelledBy [boundary] = [boundary] := by
  simp [spelledBy, spellings, choices, letter]

theorem mem_spelled_sign_last (letter : boundary ∉ macros.usable.names)
    (cut : macros.usable.pieces context = parts ++ [boundary]) :
    text ∈ macros.spelled context ↔ ∃ t ∈ macros.spelledBy parts, t ++ boundary = text := by
  rw [spelled, cut, List.map_append, mem_spellings_append, ← spelledBy, ← spelledBy,
    spelledBy_sign letter]
  simp

theorem mem_spelled_sign_first (letter : boundary ∉ macros.usable.names)
    (cut : macros.usable.pieces context = boundary :: parts) :
    text ∈ macros.spelled context ↔ ∃ t ∈ macros.spelledBy parts, boundary ++ t = text := by
  rw [spelled, cut, ← List.singleton_append, List.map_append, mem_spellings_append, ← spelledBy,
    ← spelledBy, spelledBy_sign letter]
  simp

theorem ne_boundary_of_cut (macros : Macros) (cut : 1 < (macros.pieces context).length) :
    context ≠ boundary := by
  rintro rfl
  exact Nat.not_lt.mpr (length_tokenize_le macros.names boundary) cut

end Macros

/-- In a context that ends in the sign, the sign asks for itself after what the other parts
spell. -/
theorem beginsAs_sign_iff (some : parts ≠ []) (letter : boundary ∉ macros.usable.names)
    (cut : macros.usable.pieces context = parts ++ [boundary]) (after : Text) :
    beginsAs macros context after = true ↔
      ∃ t ∈ macros.spelledBy parts, t ++ boundary <+: after := by
  have inner : context ≠ boundary :=
    macros.usable.ne_boundary_of_cut (by simpa [cut] using List.length_pos_iff.mpr some)
  rw [beginsAs, if_neg inner, List.any_eq_true]
  simp only [Macros.mem_spelled_sign_last letter cut, List.isPrefixOf_iff_prefix]
  constructor
  · rintro ⟨_, ⟨t, spelled, rfl⟩, begins⟩
    exact ⟨t, spelled, begins⟩
  · rintro ⟨t, spelled, begins⟩
    exact ⟨_, ⟨t, spelled, rfl⟩, begins⟩

theorem endsAs_sign_iff (some : parts ≠ []) (letter : boundary ∉ macros.usable.names)
    (cut : macros.usable.pieces context = boundary :: parts) (before : Text) :
    endsAs macros context before = true ↔
      ∃ t ∈ macros.spelledBy parts, boundary ++ t <:+ before := by
  have inner : context ≠ boundary :=
    macros.usable.ne_boundary_of_cut (by simpa [cut] using List.length_pos_iff.mpr some)
  rw [endsAs, if_neg inner, List.any_eq_true]
  simp only [Macros.mem_spelled_sign_first letter cut, List.isSuffixOf_iff_suffix]
  constructor
  · rintro ⟨_, ⟨t, spelled, rfl⟩, ends⟩
    exact ⟨t, spelled, ends⟩
  · rintro ⟨t, spelled, ends⟩
    exact ⟨_, ⟨t, spelled, rfl⟩, ends⟩

namespace CharacterRule
variable {r : CharacterRule}

/-- A rule with readable contexts does what its scans do, for which a context that is the boundary
sign is an end of the word. At the edge of a context with other parts, where no macro has the name
of the sign, the scans ask for the sign itself beside what the other parts spell. -/
theorem edge_sign_is_letter (r : CharacterRule) (macros : Macros) (word : Text)
    (before : macros.Readable r.before) (after : macros.Readable r.after) :
    (∃ o, r.apply macros word = ⟨[], .ok o⟩ ∧ o.result = r.scanAll macros word ∧
      o.warnings = []) ∧
      ∀ parts ≠ [], boundary ∉ macros.usable.names →
        (macros.usable.pieces r.after = parts ++ [boundary] → ∀ right,
          (beginsAs macros r.after right = true ↔
            ∃ t ∈ macros.spelledBy parts, t ++ boundary <+: right)) ∧
        (macros.usable.pieces r.before = boundary :: parts → ∀ left,
          (endsAs macros r.before left = true ↔
            ∃ t ∈ macros.spelledBy parts, boundary ++ t <:+ left)) := by
  refine ⟨?_, fun parts some letter => ⟨?_, ?_⟩⟩
  · obtain ⟨o, applied, result, warnings⟩ :=
      applyPairs_readable before after r.pairs (fun _ member => target_ne_nil member)
        ⟨word, false, [], []⟩
    refine ⟨o, applied, ?_, warnings⟩
    rw [result, scanAll, pairs_eq_pairing]
  · exact fun cut => beginsAs_sign_iff some letter cut
  · exact fun cut => endsAs_sign_iff some letter cut

def quoted : CharacterRule where
  id := ['q']
  target := "p t"
  replacement := "b d"
  before := "#V"
  after := "r#"

theorem edge_sign_is_letter_quoted :
    (∃ o, quoted.apply [("V", ["a", "e."])] "#apr#apr" = ⟨[], .ok o⟩ ∧
      o.result = ("#abr#apr" : Text) ∧ o.warnings = []) ∧
      (∀ right, (beginsAs [("V", ["a", "e."])] "r#" right = true ↔
        ∃ t ∈ Macros.spelledBy [("V", ["a", "e."])] ["r"], t ++ boundary <+: right)) ∧
      ∀ left, (endsAs [("V", ["a", "e."])] "#V" left = true ↔
        ∃ t ∈ Macros.spelledBy [("V", ["a", "e."])] ["V"], boundary ++ t <:+ left) := by
  obtain ⟨scans, edges⟩ :=
    edge_sign_is_letter quoted [("V", ["a", "e."])] "#apr#apr" (by decide) (by decide)
  rw [show quoted.scanAll [("V", ["a", "e."])] "#apr#apr" = "#abr#apr" by decide] at scans
  exact ⟨scans, (edges ["r"] (by decide) (by decide)).1 (by decide),
    (edges ["V"] (by decide) (by decide)).2 (by decide)⟩

def beforeLast : CharacterRule where
  id := ['r']
  target := "p"
  replacement := "b"
  after := "a#"

def afterFirst : CharacterRule where
  id := ['r']
  target := "p"
  replacement := "b"
  before := "#a"

/-- The signs of these rules are no ends of the word: the rules keep words in which the vowel stands
at the end and at the start. -/
theorem edge_sign_misses_ends :
    (beforeLast.apply [] "pa" = ⟨[], .ok ⟨"pa", false, [], []⟩⟩ ∧
      scan (fun _ right => (Macros.spelledBy [] ["a"]).any (· == right)) "p" "b" 0 [] "pa" =
        ("ba" : Text)) ∧
      afterFirst.apply [] "ap" = ⟨[], .ok ⟨"ap", false, [], []⟩⟩ ∧
      scan (fun left _ => (Macros.spelledBy [] ["a"]).any (· == left)) "p" "b" 0 [] "ap" =
        ("ab" : Text) :=
  ⟨⟨rfl, by decide⟩, rfl, by decide⟩

/-! ### Words without the sign -/

theorem scan_keeps {fits : Text → Text → Bool}
    (never : ∀ left right, '#' ∉ left → '#' ∉ right → fits left right = false)
    (target new : Text) {before word : Text} (free : '#' ∉ before) (clean : '#' ∉ word) :
    scan fits target new 0 before word = word := by
  induction word generalizing before with
  | nil => rfl
  | cons c rest ih =>
    have right : '#' ∉ (c :: rest).drop target.length :=
      fun member => clean (List.mem_of_mem_drop member)
    have moved : '#' ∉ before ++ [c] := by
      rw [List.mem_append, List.mem_singleton]
      rintro (early | rfl)
      · exact free early
      · exact clean List.mem_cons_self
    rw [scan, never _ _ free right, Bool.and_false, if_neg Bool.false_ne_true,
      ih moved fun member => clean (List.mem_cons_of_mem c member)]

/-- With the sign at the edge of a longer context a rule keeps every word that does not have the
sign. -/
theorem scanAll_keeps (some : parts ≠ []) (letter : boundary ∉ macros.usable.names)
    (cut : macros.usable.pieces r.after = parts ++ [boundary] ∨
      macros.usable.pieces r.before = boundary :: parts)
    {word : Text} (clean : '#' ∉ word) : r.scanAll macros word = word := by
  have never : ∀ left right, '#' ∉ left → '#' ∉ right →
      (endsAs macros r.before left && beginsAs macros r.after right) = false := by
    intro left right free clean
    rw [Bool.and_eq_false_iff]
    rcases cut with last | first
    · refine Or.inr (Bool.eq_false_iff.mpr fun begins => ?_)
      obtain ⟨t, _, stands⟩ := (beginsAs_sign_iff some letter last right).mp begins
      exact clean (stands.subset (List.mem_append_right t List.mem_cons_self))
    · refine Or.inl (Bool.eq_false_iff.mpr fun ends => ?_)
      obtain ⟨t, _, stands⟩ := (endsAs_sign_iff some letter first left).mp ends
      exact free (stands.subset (List.mem_append_left t List.mem_cons_self))
  refine List.foldl_fixed' (fun pair => ?_) r.pairing
  rw [scanPair]
  split
  · rfl
  · exact scan_keeps never pair.1 pair.2 List.not_mem_nil clean

end CharacterRule
end SoundLaw
