import SoundLaw.Phonology.Token
import Mathlib.Data.List.Basic

/-!
The longest entry of an inventory at a place of a word, and what it makes the next token.
-/
namespace SoundLaw

theorem longestAt_prefix (word : Text) (inventory : List Text) :
    longestAt word inventory <+: word := by
  induction inventory with
  | nil => exact List.nil_prefix
  | cons entry rest ih =>
    simp only [longestAt]
    split
    · rename_i fits
      simp only [Bool.and_eq_true, List.isPrefixOf_iff_prefix] at fits
      exact fits.1
    · exact ih

theorem longestAt_mem (word : Text) (inventory : List Text) :
    longestAt word inventory = [] ∨ longestAt word inventory ∈ inventory := by
  induction inventory with
  | nil => exact Or.inl rfl
  | cons entry rest ih =>
    simp only [longestAt]
    split
    · exact Or.inr List.mem_cons_self
    · exact ih.imp_right (List.mem_cons_of_mem entry)

theorem longestAt_longest (word : Text) {inventory : List Text} {entry : Text}
    (member : entry ∈ inventory) (fits : entry <+: word) :
    entry.length ≤ (longestAt word inventory).length := by
  induction inventory with
  | nil => simp at member
  | cons first rest ih =>
    simp only [longestAt]
    split
    · rename_i better
      simp only [Bool.and_eq_true, decide_eq_true_eq] at better
      rcases List.mem_cons.mp member with same | later
      · exact Nat.le_of_eq (congrArg List.length same)
      · have shorter := ih later
        omega
    · rename_i worse
      rcases List.mem_cons.mp member with same | later
      · subst same
        simp only [Bool.and_eq_true, List.isPrefixOf_iff_prefix, decide_eq_true_eq, not_and]
          at worse
        exact Nat.le_of_not_lt (worse fits)
      · exact ih later

variable {inventory : List Text} {c d : Char} {rest more : Text}

theorem cutFrom_entry (h : longestAt (c :: rest) inventory = d :: more) :
    cutFrom inventory 0 (c :: rest) = (d :: more) :: cutFrom inventory more.length rest := by
  obtain ⟨tail, split⟩ := longestAt_prefix (c :: rest) inventory
  rw [h, List.cons_append, List.cons.injEq] at split
  obtain ⟨same, split⟩ := split
  have taken : rest.take more.length = more := by simp [← split]
  simp only [cutFrom, h, List.length_cons, Nat.add_sub_cancel, taken, same]

theorem cutFrom_character (h : longestAt (c :: rest) inventory = []) :
    cutFrom inventory 0 (c :: rest) = [c] :: cutFrom inventory 0 rest := by
  simp [cutFrom, h]

theorem character_not_entry (h : longestAt (c :: rest) inventory = []) : [c] ∉ inventory := by
  intro member
  have bound := longestAt_longest (c :: rest) member (by simp)
  simp [h] at bound

theorem length_cutFrom_le (inventory : List Text) (skip : Nat) (word : Text) :
    (cutFrom inventory skip word).length ≤ word.length := by
  induction word generalizing skip with
  | nil => cases skip <;> exact Nat.le_refl 0
  | cons c rest ih =>
    cases skip with
    | zero => exact Nat.succ_le_succ (ih _)
    | succ skip => exact Nat.le_succ_of_le (ih skip)

theorem length_tokenize_le (inventory : List Text) (word : Text) :
    (tokenize inventory word).length ≤ word.length :=
  length_cutFrom_le inventory 0 word

end SoundLaw
