import SoundLaw.Proofs.Rule.Expansion

/-!
Readable and plain contexts: macro names between characters that mean nothing in patterns, and in
a plain context no boundary sign among them. Expanded and read as a pattern, such a context stands
at a place just where one of the texts stands there that it spells, a macro spelling any of its
members.
-/
namespace SoundLaw
open Regex

namespace Macros

/-- What a piece stands for: a macro name for the members of the macro, another piece for itself. -/
def choices (macros : Macros) (piece : Text) : List Text :=
  if piece ∈ macros.names then macros.members piece else [piece]

end Macros

def spellings : List (List Text) → List Text
  | [] => [[]]
  | choices :: rest => choices.flatMap fun t => (spellings rest).map (t ++ ·)

namespace Macros

def spelled (macros : Macros) (context : Text) : List Text :=
  spellings ((macros.usable.pieces context).map macros.usable.choices)

/-- A context is plain if it is the boundary sign, or has outside of macro names neither this sign
nor a character with a meaning in patterns. -/
def Plain (macros : Macros) (context : Text) : Prop :=
  context = boundary ∨ ∀ piece ∈ macros.usable.pieces context,
    piece ∈ macros.usable.names ∨ ∀ c ∈ piece, isSyntax c = false ∧ c ≠ '#'

instance (macros : Macros) (context : Text) : Decidable (macros.Plain context) :=
  decidable_of_iff
    (context = boundary ∨ (macros.usable.pieces context).all (fun piece =>
      decide (piece ∈ macros.usable.names) ||
        piece.all fun c => !isSyntax c && decide (c ≠ '#')) = true)
    (by simp [Plain])

/-- A context is readable if it is the boundary sign, or has outside of macro names no character
with a meaning in patterns. -/
def Readable (macros : Macros) (context : Text) : Prop :=
  context = boundary ∨ ∀ piece ∈ macros.usable.pieces context,
    piece ∈ macros.usable.names ∨ ∀ c ∈ piece, isSyntax c = false

instance (macros : Macros) (context : Text) : Decidable (macros.Readable context) :=
  decidable_of_iff
    (context = boundary ∨ (macros.usable.pieces context).all (fun piece =>
      decide (piece ∈ macros.usable.names) || piece.all fun c => !isSyntax c) = true)
    (by simp [Readable])

theorem Plain.readable {macros : Macros} {context : Text} (plain : macros.Plain context) :
    macros.Readable context :=
  plain.imp_right fun pieces piece member =>
    (pieces piece member).imp_right fun letters c here => (letters c here).1

/-! ### Members of usable macros -/

theorem members_ne_nil {macros : Macros} (full : ∀ m ∈ macros, m.2 ≠ []) {name : Text}
    (known : name ∈ macros.names) : macros.members name ≠ [] := by
  induction macros with
  | nil => cases known
  | cons m rest ih =>
    obtain ⟨n, l⟩ := m
    simp only [members]
    split
    · exact full (n, l) List.mem_cons_self
    · rename_i other
      refine ih (fun m member => full m (List.mem_cons_of_mem _ member)) ?_
      rcases List.mem_cons.mp known with same | later
      · exact absurd same.symm other
      · exact later

theorem usable_members_ne_nil (macros : Macros) {name : Text}
    (known : name ∈ macros.usable.names) : macros.usable.members name ≠ [] := by
  refine members_ne_nil ?_ known
  intro m member
  have full := (List.mem_filter.mp member).2
  simp only [Bool.and_eq_true, Bool.not_eq_true', List.isEmpty_eq_false_iff] at full
  exact full.2

/-! ### Reading piece by piece -/

def tried (macros : Macros) (name : Text) : List Text := longestFirst (macros.members name)

def piecePatterns (macros : Macros) (piece : Text) : List Pattern :=
  if piece ∈ macros.names then [anyOf [] (macros.tried piece)] else piece.map (letter [])

theorem reads_letters {t : Text} (ordinary : ∀ c ∈ t, isSyntax c = false) :
    Read.Reads [] t (t.map (letter [])) := by
  induction t with
  | nil => exact Read.reads_nil []
  | cons c t ih =>
    have first : Read.Reads [] [c] [letter [] c] :=
      Read.reads_letter (ordinary c List.mem_cons_self)
    exact Read.reads_append first (ih fun d member => ordinary d (List.mem_cons_of_mem c member))

theorem reads_piece (macros : Macros) {piece : Text}
    (readable : piece ∈ macros.usable.names ∨ ∀ c ∈ piece, isSyntax c = false) :
    Read.Reads [] (macros.usable.pieceText piece) (macros.usable.piecePatterns piece) := by
  unfold pieceText piecePatterns
  split
  · rename_i known
    exact Read.reads_group [] _ (longestFirst_ne_nil (usable_members_ne_nil macros known))
  · rename_i other
    exact reads_letters (readable.resolve_left other)

theorem reads_pieces (macros : Macros) {pieces : List Text}
    (readable : ∀ piece ∈ pieces,
      piece ∈ macros.usable.names ∨ ∀ c ∈ piece, isSyntax c = false) :
    Read.Reads [] (pieces.flatMap macros.usable.pieceText)
      (pieces.flatMap macros.usable.piecePatterns) := by
  induction pieces with
  | nil => exact Read.reads_nil []
  | cons piece rest ih =>
    rw [List.flatMap_cons, List.flatMap_cons]
    exact Read.reads_append (reads_piece macros (readable piece List.mem_cons_self))
      (ih fun p member => readable p (List.mem_cons_of_mem piece member))

/-! ### Matching piece by piece -/

theorem run_piece (macros : Macros) {piece : Text}
    (full : piece ∈ macros.names → macros.members piece ≠ []) (behind : Bool) (s : State)
    (next : Continuation) :
    (run (.ofList (macros.piecePatterns piece)) behind s next).isSome = true ↔
      ∃ t ∈ macros.choices piece, ((s.across behind t).bind next).isSome = true := by
  unfold piecePatterns choices
  split
  · rename_i known
    have some : macros.tried piece ≠ [] := longestFirst_ne_nil (full known)
    rw [Pattern.ofList, run_anyOf rfl _ some,
      List.findSome?_isSome_iff]
    simp only [tried, mem_longestFirst]
  · rw [run_literal rfl]
    simp

/-- A context stands at a place, with the rest of the pattern after it, just where a text does
that it spells. -/
theorem run_pieces (macros : Macros) {pieces : List Text}
    (full : ∀ name, name ∈ macros.names → macros.members name ≠ []) (behind : Bool) (s : State)
    (next : Continuation) :
    (run (.ofList (pieces.flatMap macros.piecePatterns)) behind s next).isSome = true ↔
      ∃ t ∈ spellings (pieces.map macros.choices),
        ((s.across behind t).bind next).isSome = true := by
  induction pieces generalizing s next with
  | nil => simp [spellings, Pattern.ofList]
  | cons piece rest ih =>
    simp only [List.flatMap_cons, List.map_cons, spellings, List.mem_flatMap, List.mem_map]
    cases behind with
    | false =>
      rw [run_append_ahead, run_piece macros (full piece)]
      constructor
      · rintro ⟨t, choice, found⟩
        obtain ⟨s', moved, found⟩ := State.isSome_bind_iff.mp found
        obtain ⟨u, spelled, found⟩ := (ih s' next).mp found
        refine ⟨t ++ u, ⟨t, choice, u, spelled, rfl⟩, ?_⟩
        rwa [State.across_append_ahead, moved]
      · rintro ⟨_, ⟨t, choice, u, spelled, rfl⟩, found⟩
        rw [State.across_append_ahead, Option.bind_assoc] at found
        obtain ⟨s', moved, found⟩ := State.isSome_bind_iff.mp found
        refine ⟨t, choice, State.isSome_bind_iff.mpr ⟨s', moved, ?_⟩⟩
        exact (ih s' next).mpr ⟨u, spelled, found⟩
    | true =>
      -- Against the reading direction the last pieces come first.
      rw [run_append_behind, ih]
      constructor
      · rintro ⟨u, spelled, found⟩
        obtain ⟨s', moved, found⟩ := State.isSome_bind_iff.mp found
        obtain ⟨t, choice, found⟩ := (run_piece macros (full piece) true s' next).mp found
        refine ⟨t ++ u, ⟨t, choice, u, spelled, rfl⟩, ?_⟩
        rwa [State.across_append_behind, moved]
      · rintro ⟨_, ⟨t, choice, u, spelled, rfl⟩, found⟩
        rw [State.across_append_behind, Option.bind_assoc] at found
        obtain ⟨s', moved, found⟩ := State.isSome_bind_iff.mp found
        refine ⟨u, spelled, State.isSome_bind_iff.mpr ⟨s', moved, ?_⟩⟩
        exact (run_piece macros (full piece) true s' next).mpr ⟨t, choice, found⟩

end Macros
end SoundLaw
