import SoundLaw.Proofs.Phonology.Printing
import SoundLaw.Proofs.Rule.Schema

/-!
The notation of feature expressions. A text is read as the pieces between its commas, without the
blanks and the brackets around it. It is refused when a piece is a lone sign or a name has both
signs, and otherwise gives the names of its pieces in order.
-/
namespace SoundLaw

namespace Expression
open Text

/-! ### The pieces of a text -/

def Inner (t inner : Text) : Prop :=
  ∃ opening closing, t = opening ++ inner ++ closing ∧
    (opening = ['['] ∨ opening = [] ∧ t.head? ≠ some '[') ∧
    (closing = [']'] ∨ closing = [] ∧ inner.getLast? ≠ some ']')

/-- The pieces between the commas of a text without the blanks and the brackets around it. -/
structure Cut (t : Text) (pieces : List Text) : Prop where
  some_piece : pieces ≠ []
  whole : ∀ piece ∈ pieces, ',' ∉ piece
  inner : Inner t.strip (List.intercalate [','] pieces)

theorem closed_iff {t inner : Text} :
    (∃ closing, t = inner ++ closing ∧
      (closing = [']'] ∨ closing = [] ∧ inner.getLast? ≠ some ']')) ↔
      inner = if t.getLast? = some ']' then t.dropLast else t := by
  by_cases last : t.getLast? = some ']'
  · obtain ⟨body, rfl⟩ := List.getLast?_eq_some_iff.mp last
    rw [if_pos last, List.dropLast_concat]
    constructor
    · rintro ⟨closing, whole, rfl | ⟨rfl, apart⟩⟩
      · exact (List.append_cancel_right whole).symm
      · rw [List.append_nil] at whole
        exact absurd (whole ▸ last) apart
    · rintro rfl
      exact ⟨[']'], rfl, Or.inl rfl⟩
  · rw [if_neg last]
    constructor
    · rintro ⟨closing, rfl, rfl | ⟨rfl, apart⟩⟩
      · exact absurd List.getLast?_concat last
      · exact (List.append_nil inner).symm
    · rintro rfl
      exact ⟨[], (List.append_nil inner).symm, Or.inr ⟨rfl, last⟩⟩

theorem unbracket_opened (t : Text) :
    unbracket ('[' :: t) = if t.getLast? = some ']' then t.dropLast else t := rfl

theorem unbracket_bare {t : Text} (bare : t.head? ≠ some '[') :
    unbracket t = if t.getLast? = some ']' then t.dropLast else t := by
  cases t with
  | nil => rfl
  | cons c rest =>
    have other : c ≠ '[' := fun same => bare (congrArg some same)
    simp [unbracket, other]

theorem inner_iff {t inner : Text} : Inner t inner ↔ inner = unbracket t := by
  by_cases opened : t.head? = some '['
  · obtain ⟨rest, rfl⟩ := List.head?_eq_some_iff.mp opened
    rw [unbracket_opened, ← closed_iff]
    constructor
    · rintro ⟨opening, closing, whole, rfl | ⟨rfl, bare⟩, last⟩
      · exact ⟨closing, (List.cons.inj whole).2, last⟩
      · exact absurd opened bare
    · rintro ⟨closing, rfl, last⟩
      exact ⟨['['], closing, rfl, Or.inl rfl, last⟩
  · rw [unbracket_bare opened, ← closed_iff]
    constructor
    · rintro ⟨opening, closing, rfl, rfl | ⟨rfl, bare⟩, last⟩
      · exact absurd rfl opened
      · exact ⟨closing, rfl, last⟩
    · rintro ⟨closing, whole, last⟩
      exact ⟨[], closing, whole, Or.inr ⟨rfl, opened⟩, last⟩

theorem cut_iff {t : Text} {pieces : List Text} :
    Cut t pieces ↔ pieces = split (· = ',') (unbracket t.strip) := by
  constructor
  · intro cut
    rw [← inner_iff.mp cut.inner, split_intercalate cut.some_piece cut.whole]
  · rintro rfl
    refine ⟨split_ne_nil _ _, fun piece member comma => ?_, ?_⟩
    · simpa using split_unmarked member ',' comma
    · rw [intercalate_split]
      exact inner_iff.mpr rfl

/-! ### The names of pieces -/

/-- A piece that is a sign and blanks. -/
def LoneSign (piece : Text) : Prop := piece.strip = ['+'] ∨ piece.strip = ['-']

def positiveNames (pieces : List Text) : List Text :=
  ((pieces.map strip).filter fun part => part ≠ [] ∧ part.head? ≠ some '-').map fun part =>
    strip (without ['+'] part)

def negativeNames (pieces : List Text) : List Text :=
  ((pieces.map strip).filter fun part => part.head? = some '-').map fun part => strip part.tail

theorem strip_after_sign {piece rest : Text} {sign : Char} (signed : piece.strip = sign :: rest) :
    strip rest = [] ↔ piece.strip = [sign] := by
  constructor
  · intro none
    cases last : rest.getLast? with
    | none => rw [signed, List.getLast?_eq_none_iff.mp last]
    | some c =>
      have bare := (strip_trimmed piece).stop c (by
        rw [signed, List.getLast?_cons, last]
        rfl)
      rw [strip_eq_nil.mp none c (List.mem_of_getLast? last)] at bare
      cases bare
  · intro alone
    obtain rfl := (List.cons.inj (signed.symm.trans alone)).2
    rfl

theorem readPart_cases (piece : Text) :
    piece.strip = [] ∧ readPart piece = .blank ∨
    LoneSign piece ∧ readPart piece = .nameless piece.strip ∨
    ¬ LoneSign piece ∧ piece.strip.head? = some '-' ∧
      readPart piece = .excluded (strip piece.strip.tail) ∨
    ¬ LoneSign piece ∧ piece.strip ≠ [] ∧ piece.strip.head? ≠ some '-' ∧
      readPart piece = .required (strip (without ['+'] piece.strip)) := by
  unfold readPart LoneSign
  split
  · rename_i none
    exact Or.inl ⟨none, rfl⟩
  · rename_i rest signed
    simp only [List.isEmpty_iff, strip_after_sign signed]
    by_cases lone : piece.strip = ['-']
    · exact Or.inr (Or.inl ⟨Or.inr lone, if_pos lone⟩)
    · refine Or.inr (Or.inr (Or.inl ⟨?_, by rw [signed]; rfl, ?_⟩))
      · rw [signed] at lone ⊢
        simpa using lone
      · rw [if_neg lone, signed]
        rfl
  · rename_i rest signed
    simp only [List.isEmpty_iff, strip_after_sign signed]
    by_cases lone : piece.strip = ['+']
    · exact Or.inr (Or.inl ⟨Or.inl lone, if_pos lone⟩)
    · refine Or.inr (Or.inr (Or.inr ⟨?_, by simp [signed], by simp [signed], ?_⟩))
      · rw [signed] at lone ⊢
        simpa using lone
      · rw [if_neg lone, signed]
        rfl
  · rename_i nonempty minus plus
    refine Or.inr (Or.inr (Or.inr ⟨?_, nonempty, ?_, ?_⟩))
    · rintro (lone | lone)
      · exact plus [] lone
      · exact minus [] lone
    · intro signed
      obtain ⟨rest, whole⟩ := List.head?_eq_some_iff.mp signed
      exact minus rest whole
    · have unsigned : without ['+'] piece.strip = piece.strip := by
        refine if_neg fun signed => ?_
        obtain ⟨rest, whole⟩ := List.isPrefixOf_iff_prefix.mp signed
        exact plus rest whole.symm
      rw [unsigned, (strip_trimmed piece).strip_eq]

theorem readPart_nameless_iff {piece : Text} :
    (∃ part, readPart piece = .nameless part) ↔ LoneSign piece := by
  obtain ⟨none, read⟩ | ⟨lone, read⟩ | ⟨named, _, read⟩ | ⟨named, _, _, read⟩ :=
    readPart_cases piece
  · simp [read, LoneSign, none]
  · simp [read, lone]
  · simp [read, named]
  · simp [read, named]

theorem names_read {pieces : List Text} (named : ∀ piece ∈ pieces, ¬ LoneSign piece) :
    required (pieces.map readPart) = positiveNames pieces ∧
      excluded (pieces.map readPart) = negativeNames pieces := by
  induction pieces with
  | nil => exact ⟨rfl, rfl⟩
  | cons piece rest ih =>
    rw [List.forall_mem_cons] at named
    obtain ⟨plus, minus⟩ := ih named.2
    rw [positiveNames, required] at plus
    rw [negativeNames, excluded] at minus
    rw [positiveNames, required, negativeNames, excluded]
    obtain ⟨none, read⟩ | ⟨lone, _⟩ | ⟨_, signed, read⟩ | ⟨_, nonempty, unsigned, read⟩ :=
      readPart_cases piece
    · simp [read, none, plus, minus]
    · exact absurd lone named.1
    · simp [read, signed, plus, minus]
    · simp [read, nonempty, unsigned, plus, minus]

/-! ### What is refused -/

theorem parse_nameless {t : Text} (listed : ∃ part, Part.nameless part ∈ parts t) :
    ∃ reason, parse t = .error (.invalidExpression t (some reason)) := by
  obtain ⟨part, listed⟩ := listed
  unfold parse
  dsimp only
  split
  · exact ⟨_, rfl⟩
  · rename_i none
    have passed := List.findSome?_eq_none_iff.mp none _ listed
    cases passed

theorem parse_named {t : Text} (named : ∀ part, Part.nameless part ∉ parts t) :
    parse t = match ofLists? (required (parts t)) (excluded (parts t)) with
      | .ok e => .ok e
      | .error both => .error (.invalidExpression t
        (some ("features both required and excluded: " ++ List.intercalate ", ".toList both))) := by
  unfold parse
  dsimp only
  split
  · rename_i part found
    obtain ⟨nameless, listed, same⟩ := List.exists_of_findSome?_eq_some found
    cases nameless <;> cases same
    exact absurd listed (named part)
  · rfl

/-- A text is refused in the words of its own notation, and exactly when a piece is a lone sign or a
name has both signs. Otherwise it gives the names of its pieces by their signs, in order and as
often as they stand there, and these lists pass the check of expressions. -/
theorem parse_pieces (t : Text) :
    (∃ pieces, Cut t pieces) ∧ ∀ pieces, Cut t pieces →
      ((∃ problem, parse t = .error problem) ↔ (∃ piece ∈ pieces, LoneSign piece) ∨
        ∃ name ∈ positiveNames pieces, name ∈ negativeNames pieces) ∧
      (∀ problem, parse t = .error problem →
        ∃ reason, problem = .invalidExpression t (some reason)) ∧
      ∀ e, parse t = .ok e →
        e.positive = positiveNames pieces ∧ e.negative = negativeNames pieces ∧
          Expression.check (.object [("positive", .texts (positiveNames pieces)),
            ("negative", .texts (negativeNames pieces))]) = pure e := by
  refine ⟨⟨_, cut_iff.mpr rfl⟩, fun pieces cut => ?_⟩
  have read : parts t = pieces.map readPart := by rw [cut_iff.mp cut, parts]
  by_cases lone : ∃ piece ∈ pieces, LoneSign piece
  · obtain ⟨piece, member, sign⟩ := lone
    obtain ⟨part, nameless⟩ := readPart_nameless_iff.mpr sign
    obtain ⟨reason, refused⟩ : ∃ reason, parse t = .error (.invalidExpression t (some reason)) :=
      parse_nameless ⟨part, read ▸ nameless ▸ List.mem_map_of_mem member⟩
    rw [refused]
    refine ⟨⟨fun _ => Or.inl ⟨piece, member, sign⟩, fun _ => ⟨_, rfl⟩⟩, ?_, ?_⟩
    · rintro problem ⟨⟩
      exact ⟨reason, rfl⟩
    · rintro e ⟨⟩
  · have signed : ∀ piece ∈ pieces, ¬ LoneSign piece := fun piece member sign =>
      lone ⟨piece, member, sign⟩
    have named : ∀ part, Part.nameless part ∉ parts t := by
      intro part listed
      rw [read] at listed
      obtain ⟨piece, member, nameless⟩ := List.mem_map.mp listed
      exact signed piece member (readPart_nameless_iff.mp ⟨part, nameless⟩)
    obtain ⟨plus, minus⟩ := names_read signed
    rw [parse_named named, read, plus, minus, ofLists?]
    by_cases apart : ∀ name ∈ positiveNames pieces, name ∉ negativeNames pieces
    · rw [dif_pos apart]
      refine ⟨⟨?_, fun refused => ?_⟩, ?_, ?_⟩
      · rintro ⟨problem, ⟨⟩⟩
      · obtain ⟨name, positive, negative⟩ := refused.resolve_left lone
        exact absurd negative (apart name positive)
      · rintro problem ⟨⟩
      · rintro e ⟨⟩
        exact ⟨rfl, rfl, check_pure _ _ ⟨_, rfl, Or.inl ⟨_, rfl, rfl⟩, Or.inl ⟨_, rfl, rfl⟩⟩⟩
    · rw [dif_neg apart]
      refine ⟨⟨fun _ => Or.inr ?_, fun _ => ⟨_, rfl⟩⟩, ?_, ?_⟩
      · simpa using apart
      · rintro problem ⟨⟩
        exact ⟨_, rfl⟩
      · rintro e ⟨⟩

/-- Blank pieces, blanks around signs, and signs and brackets that belong to names. -/
theorem parse_pieces_signs :
    ∃ pieces, Cut " [ -[-] ,, + -, voiced] " pieces ∧
      parse " [ -[-] ,, + -, voiced] " = .ok ⟨["-", "voiced"], ["[-]"], by decide⟩ ∧
      positiveNames pieces = ["-", "voiced"] ∧ negativeNames pieces = ["[-]"] := by
  obtain ⟨⟨pieces, cut⟩, pieced⟩ := parse_pieces " [ -[-] ,, + -, voiced] "
  have accepted : parse " [ -[-] ,, + -, voiced] " =
      .ok ⟨["-", "voiced"], ["[-]"], by decide⟩ := rfl
  obtain ⟨positive, negative, _⟩ := (pieced pieces cut).2.2 _ accepted
  exact ⟨pieces, cut, accepted, positive.symm, negative.symm⟩

end Expression
end SoundLaw
