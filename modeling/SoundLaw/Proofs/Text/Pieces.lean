import SoundLaw.Text.Blank
import Mathlib.Data.List.Basic
import Mathlib.Data.List.TakeWhile

/-!
Texts cut at marks, and texts without the blanks around them. The pieces hold no mark, a text that
is free of marks up to one is cut there, and the pieces joined again are the text; a stripped text
neither begins nor ends with a blank, and a text that does not is left as it is.
-/
namespace SoundLaw.Text

/-! ### Pieces between marks -/

variable {p : Char → Bool} {t : Text}

theorem split_free (free : ∀ c ∈ t, p c = false) : split p t = [t] := by
  induction t with
  | nil => rfl
  | cons c rest ih =>
    obtain ⟨first, others⟩ := List.forall_mem_cons.mp free
    rw [split, first, if_neg Bool.false_ne_true, ih others]

theorem split_marked (free : ∀ c ∈ t, p c = false) {mark : Char} (marked : p mark = true)
    (rest : Text) : split p (t ++ mark :: rest) = t :: split p rest := by
  induction t with
  | nil => rw [List.nil_append, split, if_pos marked]
  | cons c t ih =>
    obtain ⟨first, others⟩ := List.forall_mem_cons.mp free
    rw [List.cons_append, split, first, if_neg Bool.false_ne_true, ih others]

theorem split_unmarked {piece : Text} (member : piece ∈ split p t) :
    ∀ c ∈ piece, p c = false := by
  induction t generalizing piece with
  | nil =>
    obtain rfl := List.mem_singleton.mp member
    simp
  | cons c rest ih =>
    unfold split at member
    split at member
    · rcases List.mem_cons.mp member with rfl | later
      · simp
      · exact ih later
    · rename_i unmarked
      cases pieces : split p rest with
      | nil => exact absurd pieces (split_ne_nil p rest)
      | cons first others =>
        rw [pieces] at member ih
        rcases List.mem_cons.mp member with rfl | later
        · intro d hd
          rcases List.mem_cons.mp hd with rfl | inside
          · simpa using unmarked
          · exact ih List.mem_cons_self d inside
        · exact ih (List.mem_cons_of_mem first later)

theorem intercalate_split (mark : Char) (t : Text) :
    List.intercalate [mark] (split (· = mark) t) = t := by
  induction t with
  | nil => rfl
  | cons c rest ih =>
    cases pieces : split (· = mark) rest with
    | nil => exact absurd pieces (split_ne_nil _ rest)
    | cons first others =>
      rw [pieces] at ih
      by_cases marked : c = mark
      · rw [split, if_pos (decide_eq_true marked), pieces, List.intercalate_cons_cons, ih, marked]
        rfl
      · rw [split, if_neg (by simp [marked]), pieces]
        cases others with
        | nil =>
          rw [← ih]
          rfl
        | cons next others =>
          rw [← ih, List.intercalate_cons_cons, List.intercalate_cons_cons]
          rfl

theorem split_intercalate {mark : Char} {pieces : List Text} (some_piece : pieces ≠ [])
    (whole : ∀ piece ∈ pieces, mark ∉ piece) :
    split (· = mark) (List.intercalate [mark] pieces) = pieces := by
  induction pieces with
  | nil => exact absurd rfl some_piece
  | cons piece rest ih =>
    rw [List.forall_mem_cons] at whole
    have free : ∀ c ∈ piece, decide (c = mark) = false := by
      intro c member
      exact decide_eq_false fun same => whole.1 (same ▸ member)
    cases rest with
    | nil => rw [List.intercalate_singleton, split_free free]
    | cons next rest =>
      rw [List.intercalate_cons_cons, List.append_assoc, List.singleton_append,
        split_marked free (decide_eq_true rfl), ih (List.cons_ne_nil _ _) whole.2]

/-! ### Texts without blanks around them -/

structure Trimmed (t : Text) : Prop where
  start : ∀ c ∈ t.head?, isBlank c = false
  stop : ∀ c ∈ t.getLast?, isBlank c = false

theorem stripStart_eq (start : ∀ c ∈ t.head?, isBlank c = false) : t.stripStart = t := by
  cases t with
  | nil => rfl
  | cons c rest => rw [stripStart, List.dropWhile_cons_of_neg (by simp [start c rfl])]

theorem stripEnd_eq (stop : ∀ c ∈ t.getLast?, isBlank c = false) : t.stripEnd = t := by
  have reversed : stripStart t.reverse = t.reverse := by
    refine stripStart_eq fun c hc => stop c ?_
    rwa [List.head?_reverse] at hc
  unfold stripStart at reversed
  rw [stripEnd, reversed, List.reverse_reverse]

theorem Trimmed.strip_eq (trimmed : Trimmed t) : t.strip = t := by
  rw [strip, stripStart_eq trimmed.start, stripEnd_eq trimmed.stop]

theorem stripStart_start (t : Text) : ∀ c ∈ t.stripStart.head?, isBlank c = false := by
  intro c hc
  have not := List.head?_dropWhile_not isBlank t
  rw [stripStart, Option.mem_def] at hc
  rw [hc] at not
  simpa using not

theorem strip_eq_nil : t.strip = [] ↔ ∀ c ∈ t, isBlank c = true := by
  rw [strip, stripEnd, List.reverse_eq_nil_iff, List.dropWhile_eq_nil_iff]
  simp only [List.mem_reverse]
  constructor
  · intro blank
    have none : t.stripStart = [] := by
      cases start : t.stripStart with
      | nil => rfl
      | cons c rest =>
        have bare := stripStart_start t c (by rw [start]; rfl)
        rw [start] at blank
        simp [blank c List.mem_cons_self] at bare
    exact List.dropWhile_eq_nil_iff.mp none
  · intro blank c member
    exact blank c ((List.dropWhile_suffix isBlank).subset member)

theorem stripEnd_stop (t : Text) : ∀ c ∈ t.stripEnd.getLast?, isBlank c = false := by
  intro c hc
  rw [stripEnd, List.getLast?_reverse] at hc
  exact stripStart_start t.reverse c hc

theorem stripEnd_begins (t : Text) : t.stripEnd <+: t := by
  rw [stripEnd, ← List.reverse_suffix, List.reverse_reverse]
  exact List.dropWhile_suffix isBlank

theorem strip_trimmed (t : Text) : Trimmed t.strip where
  start := by
    intro c hc
    obtain ⟨rest, whole⟩ := stripEnd_begins t.stripStart
    refine stripStart_start t c ?_
    rw [← whole, List.head?_append, ← strip, Option.mem_def.mp hc]
    rfl
  stop := stripEnd_stop t.stripStart

theorem mem_of_mem_strip {c : Char} (member : c ∈ t.strip) : c ∈ t :=
  (List.dropWhile_suffix isBlank).subset ((stripEnd_begins t.stripStart).subset member)

theorem length_strip_le (t : Text) : t.strip.length ≤ t.length :=
  Nat.le_trans (stripEnd_begins t.stripStart).length_le (List.dropWhile_suffix _).length_le

theorem strip_blank {c : Char} (blank : isBlank c = true) (t : Text) :
    strip (c :: t) = strip t := by
  rw [strip, stripStart, List.dropWhile_cons_of_pos blank, ← stripStart, ← strip]

end SoundLaw.Text
