import SoundLaw.Phonology.Expression
import SoundLaw.Proofs.Text.Pieces

/-!
The notation of feature expressions read back. The names that reading yields are clean, and a
printed expression is read back as it was exactly when all its names are clean.
-/
namespace SoundLaw.Expression
open Text

/-- A name that can stand between commas: not empty, without a comma, without blanks around it. -/
structure Clean (name : Text) : Prop extends Trimmed name where
  nonempty : name ≠ []
  whole : ',' ∉ name

/-! ### What reading yields -/

def Part.Tidy : Part → Prop
  | .blank | .nameless _ => True
  | .required name | .excluded name => Clean name

theorem strip_clean {t : Text} (nonempty : t.strip ≠ []) (whole : ',' ∉ t) : Clean t.strip where
  toTrimmed := strip_trimmed t
  nonempty := nonempty
  whole member := whole (mem_of_mem_strip member)

theorem readPart_tidy {piece : Text} (whole : ',' ∉ piece) : (readPart piece).Tidy := by
  have stripped : ',' ∉ piece.strip := fun member => whole (mem_of_mem_strip member)
  unfold readPart
  split
  · trivial
  · rename_i rest signed
    split
    · trivial
    · rename_i named
      refine strip_clean (fun none => named (List.isEmpty_iff.mpr none)) fun member => ?_
      exact stripped (signed ▸ List.mem_cons_of_mem _ member)
  · rename_i rest signed
    split
    · trivial
    · rename_i named
      refine strip_clean (fun none => named (List.isEmpty_iff.mpr none)) fun member => ?_
      exact stripped (signed ▸ List.mem_cons_of_mem _ member)
  · rename_i nonempty _ _
    exact strip_clean nonempty whole

theorem parts_tidy {t : Text} {part : Part} (member : part ∈ parts t) : part.Tidy := by
  obtain ⟨piece, cut, rfl⟩ := List.mem_map.mp member
  refine readPart_tidy fun comma => ?_
  simpa using split_unmarked cut ',' comma

theorem mem_required {name : Text} {l : List Part} :
    name ∈ required l ↔ Part.required name ∈ l := by
  rw [required, List.mem_filterMap]
  constructor
  · rintro ⟨part, member, found⟩
    cases part <;> cases found
    exact member
  · intro member
    exact ⟨_, member, rfl⟩

theorem mem_excluded {name : Text} {l : List Part} :
    name ∈ excluded l ↔ Part.excluded name ∈ l := by
  rw [excluded, List.mem_filterMap]
  constructor
  · rintro ⟨part, member, found⟩
    cases part <;> cases found
    exact member
  · intro member
    exact ⟨_, member, rfl⟩

theorem parse_clean {t : Text} {e : Expression} (accepted : parse t = .ok e) :
    ∀ name ∈ e.positive ++ e.negative, Clean name := by
  have lists : e.positive = required (parts t) ∧ e.negative = excluded (parts t) := by
    unfold parse ofLists? at accepted
    dsimp only at accepted
    split at accepted
    · cases accepted
    · split at accepted
      · rename_i built
        split at built
        · cases built
          cases accepted
          exact ⟨rfl, rfl⟩
        · cases built
      · cases accepted
  intro name member
  rcases List.mem_append.mp member with plus | minus
  · rw [lists.1, mem_required] at plus
    exact parts_tidy plus
  · rw [lists.2, mem_excluded] at minus
    exact parts_tidy minus

/-! ### Clean names read back -/

variable {name : Text}

theorem Clean.strip_signed (clean : Clean name) (sign : Char) (bare : isBlank sign = false) :
    strip (sign :: name) = sign :: name := by
  refine Trimmed.strip_eq ⟨?_, ?_⟩
  · rintro c ⟨⟩
    exact bare
  · rw [List.getLast?_cons_of_ne_nil clean.nonempty]
    exact clean.stop

theorem readPart_plus (clean : Clean name) : readPart ('+' :: name) = .required name := by
  rw [readPart, clean.strip_signed '+' (by decide)]
  simp only [clean.strip_eq, List.isEmpty_iff, clean.nonempty, if_false]

theorem readPart_minus (clean : Clean name) : readPart ('-' :: name) = .excluded name := by
  rw [readPart, clean.strip_signed '-' (by decide)]
  simp only [clean.strip_eq, List.isEmpty_iff, clean.nonempty, if_false]

theorem readPart_space (piece : Text) : readPart (' ' :: piece) = readPart piece := by
  rw [readPart, readPart, strip_blank (by decide)]

theorem readPieces_space (t : Text) :
    (split (· = ',') (' ' :: t)).map readPart = (split (· = ',') t).map readPart := by
  rw [split, if_neg (by decide)]
  cases pieces : split (· = ',') t with
  | nil => exact absurd pieces (split_ne_nil _ t)
  | cons first others => rw [List.map_cons, List.map_cons, readPart_space]

theorem readPieces_joined {piece : Text} {pieces : List Text}
    (whole : ∀ t ∈ piece :: pieces, ',' ∉ t) :
    (split (· = ',') (List.intercalate ", ".toList (piece :: pieces))).map readPart =
      (piece :: pieces).map readPart := by
  induction pieces generalizing piece with
  | nil =>
    have free : ∀ c ∈ piece, decide (c = ',') = false := by
      intro c member
      exact decide_eq_false fun comma => whole piece List.mem_cons_self (comma ▸ member)
    rw [List.intercalate_singleton, split_free free]
  | cons next pieces ih =>
    have free : ∀ c ∈ piece, decide (c = ',') = false := by
      intro c member
      exact decide_eq_false fun comma => whole piece List.mem_cons_self (comma ▸ member)
    have joined : List.intercalate ", ".toList (piece :: next :: pieces) =
        piece ++ ',' :: ' ' :: List.intercalate ", ".toList (next :: pieces) :=
      List.intercalate_cons_cons.trans (List.append_assoc ..)
    rw [joined, split_marked free (by decide), List.map_cons, readPieces_space,
      ih fun t member => whole t (List.mem_cons_of_mem _ member)]
    rfl

theorem unbracket_bracketed (t : Text) : unbracket (strip ('[' :: t ++ [']'])) = t := by
  have trimmed : Trimmed ('[' :: t ++ [']']) := by
    refine ⟨?_, ?_⟩
    · rintro c ⟨⟩
      decide
    · intro c last
      rw [List.getLast?_append, Option.mem_def] at last
      cases last
      decide
  rw [trimmed.strip_eq, List.cons_append, unbracket]
  simp

theorem required_named (plus minus : List Text) :
    required (plus.map .required ++ minus.map .excluded) = plus := by
  simp [required, List.filterMap_append, List.filterMap_map]

theorem excluded_named (plus minus : List Text) :
    excluded (plus.map .required ++ minus.map .excluded) = minus := by
  simp [excluded, List.filterMap_append, List.filterMap_map]

theorem signed_whole {plus minus : List Text} (clean : ∀ name ∈ plus ++ minus, Clean name) :
    ∀ t ∈ plus.map ('+' :: ·) ++ minus.map ('-' :: ·), ',' ∉ t := by
  intro t member
  rcases List.mem_append.mp member with member | member
  · obtain ⟨name, inside, rfl⟩ := List.mem_map.mp member
    simpa using (clean name (List.mem_append_left minus inside)).whole
  · obtain ⟨name, inside, rfl⟩ := List.mem_map.mp member
    simpa using (clean name (List.mem_append_right plus inside)).whole

theorem parts_signed {plus minus : List Text} (clean : ∀ name ∈ plus ++ minus, Clean name) :
    parts (signed plus minus) = plus.map .required ++ minus.map .excluded ∨
      plus = [] ∧ minus = [] ∧ parts (signed plus minus) = [.blank] := by
  have named : plus.map (readPart ∘ ('+' :: ·)) = plus.map .required :=
    List.map_congr_left fun name member =>
      readPart_plus (clean name (List.mem_append_left minus member))
  have named' : minus.map (readPart ∘ ('-' :: ·)) = minus.map .excluded :=
    List.map_congr_left fun name member =>
      readPart_minus (clean name (List.mem_append_right plus member))
  have whole := signed_whole clean
  rw [parts, signed, unbracket_bracketed]
  cases texts : plus.map ('+' :: ·) ++ minus.map ('-' :: ·) with
  | nil =>
    obtain ⟨none, none'⟩ := List.append_eq_nil_iff.mp texts
    exact Or.inr ⟨List.map_eq_nil_iff.mp none, List.map_eq_nil_iff.mp none', rfl⟩
  | cons piece pieces =>
    rw [texts] at whole
    rw [readPieces_joined whole, ← texts, List.map_append, List.map_map, List.map_map, named, named']
    exact Or.inl rfl

theorem parse_print {e : Expression} (clean : ∀ name ∈ e.positive ++ e.negative, Clean name) :
    parse e.print = .ok e := by
  have read : required (parts e.print) = e.positive ∧ excluded (parts e.print) = e.negative ∧
      ∀ part, Part.nameless part ∉ parts e.print := by
    rw [print]
    rcases parts_signed clean with names | ⟨none, none', blank⟩
    · rw [names]
      exact ⟨required_named _ _, excluded_named _ _, by simp⟩
    · rw [blank, none, none']
      exact ⟨rfl, rfl, by simp⟩
  unfold parse
  dsimp only
  split
  · rename_i nameless
    obtain ⟨part, member, found⟩ := List.exists_of_findSome?_eq_some nameless
    cases part <;> cases found
    exact absurd member (read.2.2 _)
  · rw [read.1, read.2.1, ofLists?, dif_pos e.disjoint]

/-- A printed expression is read back as it was exactly when no name is empty, has a comma or has
blanks around it; and an expression that was read is always read back. -/
theorem parse_print_iff :
    (∀ e : Expression,
      parse e.print = .ok e ↔ ∀ name ∈ e.positive ++ e.negative, Clean name) ∧
    ∀ (t : Text) (e : Expression), parse t = .ok e → parse e.print = .ok e := by
  refine ⟨fun e => ⟨parse_clean, parse_print⟩, ?_⟩
  intro t e accepted
  exact parse_print (parse_clean accepted)

/-- Names of signs and brackets are clean, and stand twice where they are asked for twice. -/
theorem parse_print_iff_brackets :
    parse " [ -[-] ,, +-, voiced, voiced]" =
        .ok ⟨["-", "voiced", "voiced"], ["[-]"], by decide⟩ ∧
      parse (print ⟨["-", "voiced", "voiced"], ["[-]"], by decide⟩) =
        .ok ⟨["-", "voiced", "voiced"], ["[-]"], by decide⟩ := by
  have accepted : parse " [ -[-] ,, +-, voiced, voiced]" =
      .ok ⟨["-", "voiced", "voiced"], ["[-]"], by decide⟩ := rfl
  exact ⟨accepted, parse_print_iff.2 _ _ accepted⟩

end SoundLaw.Expression
