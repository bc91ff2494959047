import SoundLaw.Sorting
import Mathlib.Data.Finset.Card

/-!
Lists read as finite sets: what is counted in two lists are the elements of the intersection and the
union of their sets.
-/
namespace SoundLaw

variable {α : Type} [DecidableEq α] {a b : List α}

theorem mem_distinct {x : α} {l : List α} : x ∈ distinct l ↔ x ∈ l := by
  induction l with
  | nil => rfl
  | cons y rest ih =>
    by_cases same : x = y
    · simp [distinct, same]
    · simp [distinct, same, ih]

theorem nodup_distinct (l : List α) : (distinct l).Nodup := by
  induction l with
  | nil => exact List.nodup_nil
  | cons y rest ih => exact List.nodup_cons.mpr ⟨by simp, ih.filter _⟩

theorem card_distinct (l : List α) : (distinct l).length = l.toFinset.card := by
  rw [← List.toFinset_card_of_nodup (nodup_distinct l)]
  congr 1
  ext x
  simp [mem_distinct]

theorem unionCount_eq_card (a b : List α) : unionCount a b = (a.toFinset ∪ b.toFinset).card := by
  rw [unionCount, card_distinct, List.toFinset_append]

theorem commonCount_eq_card (a b : List α) :
    commonCount a b = (a.toFinset ∩ b.toFinset).card := by
  rw [commonCount, ← List.toFinset_card_of_nodup ((nodup_distinct a).filter _)]
  congr 1
  ext x
  simp [mem_distinct]

theorem commonCount_comm (a b : List α) : commonCount a b = commonCount b a := by
  rw [commonCount_eq_card, commonCount_eq_card, Finset.inter_comm]

theorem unionCount_comm (a b : List α) : unionCount a b = unionCount b a := by
  rw [unionCount_eq_card, unionCount_eq_card, Finset.union_comm]

theorem commonCount_le_unionCount (a b : List α) : commonCount a b ≤ unionCount a b := by
  rw [commonCount_eq_card, unionCount_eq_card]
  exact Finset.card_le_card inf_le_sup

theorem unionCount_le (a b : List α) : unionCount a b ≤ a.length + b.length := by
  rw [unionCount_eq_card]
  exact (Finset.card_union_le _ _).trans
    (Nat.add_le_add (List.toFinset_card_le a) (List.toFinset_card_le b))

theorem commonCount_eq_unionCount_iff : commonCount a b = unionCount a b ↔ ∀ x, x ∈ a ↔ x ∈ b := by
  have subset : a.toFinset ∩ b.toFinset ⊆ a.toFinset ∪ b.toFinset := inf_le_sup
  rw [commonCount_eq_card, unionCount_eq_card]
  constructor
  · intro counts x
    have whole := Finset.eq_of_subset_of_card_le subset counts.ge
    have same : a.toFinset = b.toFinset := inf_eq_sup.mp whole
    rw [← List.mem_toFinset, same, List.mem_toFinset]
  · intro same
    have sets : a.toFinset = b.toFinset := List.toFinset.ext_iff.mpr same
    rw [sets, Finset.inter_self, Finset.union_self]

theorem sameSet_iff : sameSet a b = true ↔ ∀ x, x ∈ a ↔ x ∈ b := by
  simp only [sameSet, Bool.and_eq_true, List.all_eq_true, decide_eq_true_eq]
  constructor
  · intro h x
    exact ⟨h.1 x, h.2 x⟩
  · intro h
    exact ⟨fun x => (h x).mp, fun x => (h x).mpr⟩

theorem sameSet_comm (a b : List α) : sameSet a b = sameSet b a := Bool.and_comm _ _

end SoundLaw
