import SoundLaw.Sorting
import Mathlib.Data.List.Basic

/-!
Sorting by insertion gives the same elements in ascending order, and it is stable: elements that
are equal in the order keep their places among one another. These properties leave one list only,
so the sorted list depends on nothing but the classes of ties.
-/
namespace SoundLaw

variable {α : Type} {le : α → α → Bool}

theorem insertSorted_perm (le : α → α → Bool) (a : α) (l : List α) :
    (insertSorted le a l).Perm (a :: l) := by
  induction l with
  | nil => exact List.Perm.refl _
  | cons b rest ih =>
    unfold insertSorted
    split
    · exact List.Perm.refl _
    · exact (ih.cons b).trans (List.Perm.swap a b rest)

theorem sortBy_perm (le : α → α → Bool) (l : List α) : (sortBy le l).Perm l := by
  induction l with
  | nil => exact List.Perm.refl _
  | cons a rest ih => exact (insertSorted_perm le a _).trans (ih.cons a)

theorem mem_sortBy (le : α → α → Bool) {a : α} {l : List α} : a ∈ sortBy le l ↔ a ∈ l :=
  (sortBy_perm le l).mem_iff

theorem insertSorted_ascending (total : ∀ a b, le a b = true ∨ le b a = true)
    (trans : ∀ a b c, le a b = true → le b c = true → le a c = true) (a : α) {l : List α}
    (sorted : l.Pairwise fun x y => le x y = true) :
    (insertSorted le a l).Pairwise fun x y => le x y = true := by
  induction l with
  | nil => simp [insertSorted]
  | cons b rest ih =>
    obtain ⟨least, tail⟩ := List.pairwise_cons.mp sorted
    unfold insertSorted
    split
    · rename_i below
      refine List.pairwise_cons.mpr ⟨?_, sorted⟩
      intro x member
      rcases List.mem_cons.mp member with e | later
      · rw [e]; exact below
      · exact trans a b x below (least x later)
    · rename_i above
      have back : le b a = true := (total a b).resolve_left above
      refine List.pairwise_cons.mpr ⟨?_, ih tail⟩
      intro x member
      rcases List.mem_cons.mp ((insertSorted_perm le a rest).mem_iff.mp member) with e | later
      · rw [e]; exact back
      · exact least x later

theorem sortBy_ascending (total : ∀ a b, le a b = true ∨ le b a = true)
    (trans : ∀ a b c, le a b = true → le b c = true → le a c = true) (l : List α) :
    (sortBy le l).Pairwise fun x y => le x y = true := by
  induction l with
  | nil => exact List.Pairwise.nil
  | cons a rest ih => exact insertSorted_ascending total trans a ih

theorem insertSorted_filter {p : α → Bool}
    (equal : ∀ a b, p a = true → p b = true → le a b = true) (a : α) (l : List α) :
    (insertSorted le a l).filter p = (a :: l).filter p := by
  induction l with
  | nil => rfl
  | cons b rest ih =>
    unfold insertSorted
    split
    · rfl
    · rename_i above
      have apart : p a = false ∨ p b = false := by
        by_contra both
        simp only [not_or, Bool.not_eq_false] at both
        exact above (equal a b both.1 both.2)
      rw [List.filter_cons, ih]
      rcases apart with out | out <;> simp [List.filter_cons, out]

/-- Elements of one class, all equal in the order, come out as they went in. -/
theorem sortBy_stable {p : α → Bool}
    (equal : ∀ a b, p a = true → p b = true → le a b = true) (l : List α) :
    (sortBy le l).filter p = l.filter p := by
  induction l with
  | nil => rfl
  | cons a rest ih =>
    rw [sortBy, insertSorted_filter equal, List.filter_cons, List.filter_cons, ih]

theorem sortBy_congr {le' : α → α → Bool} {l : List α}
    (same : ∀ a ∈ l, ∀ b ∈ l, le a b = le' a b) : sortBy le l = sortBy le' l := by
  have inserted (a : α) {m : List α} (agree : ∀ b ∈ m, le a b = le' a b) :
      insertSorted le a m = insertSorted le' a m := by
    induction m with
    | nil => rfl
    | cons b rest ih =>
      rw [insertSorted, insertSorted, agree b List.mem_cons_self,
        ih fun c member => agree c (List.mem_cons_of_mem b member)]
  induction l with
  | nil => rfl
  | cons a rest ih =>
    have rest_same := ih fun x hx y hy =>
      same x (List.mem_cons_of_mem a hx) y (List.mem_cons_of_mem a hy)
    rw [sortBy, sortBy, rest_same]
    refine inserted a fun b member => same a List.mem_cons_self b (List.mem_cons_of_mem a ?_)
    exact (mem_sortBy le').mp member

theorem sortBy_eq_self {l : List α} (equal : ∀ a ∈ l, ∀ b ∈ l, le a b = true) :
    sortBy le l = l := by
  have same : sortBy le l = sortBy (fun _ _ => true) l := sortBy_congr equal
  have stable := @sortBy_stable α (fun _ _ => true) (fun _ => true) (fun _ _ _ _ => rfl) l
  rwa [List.filter_true, List.filter_true, ← same] at stable

theorem insertSorted_map {β : Type} (f : β → α) (b : β) (l : List β) :
    insertSorted le (f b) (l.map f) = (insertSorted (fun x y => le (f x) (f y)) b l).map f := by
  induction l with
  | nil => rfl
  | cons c rest ih =>
    rw [List.map_cons, insertSorted, insertSorted, ih]
    split <;> rfl

theorem sortBy_map {β : Type} (f : β → α) (l : List β) :
    sortBy le (l.map f) = (sortBy (fun x y => le (f x) (f y)) l).map f := by
  induction l with
  | nil => rfl
  | cons b rest ih => rw [List.map_cons, sortBy, sortBy, ih, insertSorted_map]

/-! ### Ascending lists and their ties -/

def tied (le : α → α → Bool) (a b : α) : Bool := le a b && le b a

theorem sortBy_ties (trans : ∀ a b c, le a b = true → le b c = true → le a c = true) (a : α)
    (l : List α) : (sortBy le l).filter (tied le a) = l.filter (tied le a) := by
  refine sortBy_stable (fun x y first second => ?_) l
  simp only [tied, Bool.and_eq_true] at first second
  exact trans x a y first.2 second.1

theorem filter_prefix {p : α → Bool} {l : List α}
    (closed : l.Pairwise fun a b => p b = true → p a = true) : l.filter p <+: l := by
  induction l with
  | nil => exact List.prefix_refl []
  | cons a rest ih =>
    obtain ⟨first, tail⟩ := List.pairwise_cons.mp closed
    by_cases passes : p a = true
    · rw [List.filter_cons_of_pos passes]
      exact (List.prefix_cons_inj a).mpr (ih tail)
    · have none : rest.filter p = [] := by
        refine List.filter_eq_nil_iff.mpr fun b member later => ?_
        exact passes (first b member later)
      rw [List.filter_cons_of_neg passes, none]
      exact List.nil_prefix

section Order
variable (total : ∀ a b, le a b = true ∨ le b a = true)
  (trans : ∀ a b c, le a b = true → le b c = true → le a c = true)
include total

theorem tied_self (a : α) : tied le a a = true := by
  simpa [tied] using total a a

theorem mem_iff_of_ties {l l' : List α}
    (ties : ∀ a, l.filter (tied le a) = l'.filter (tied le a)) {a : α} : a ∈ l ↔ a ∈ l' := by
  have same := congrArg (a ∈ ·) (ties a)
  simpa [List.mem_filter, tied_self total a] using same

theorem head_le {a b : α} {l : List α} (sorted : (a :: l).Pairwise fun x y => le x y = true)
    (member : b ∈ a :: l) : le a b = true := by
  rcases List.mem_cons.mp member with rfl | later
  · simpa using total b b
  · exact (List.pairwise_cons.mp sorted).1 b later

/-- Ascending lists are equal as soon as each class of ties stands in both in the same row. -/
theorem ascending_eq {l l' : List α} (sorted : l.Pairwise fun x y => le x y = true)
    (sorted' : l'.Pairwise fun x y => le x y = true)
    (ties : ∀ a, l.filter (tied le a) = l'.filter (tied le a)) : l = l' := by
  induction l generalizing l' with
  | nil =>
    cases l' with
    | nil => rfl
    | cons b rest' => cases (mem_iff_of_ties total ties).mpr (List.mem_cons_self (a := b))
  | cons a rest ih =>
    cases l' with
    | nil => cases (mem_iff_of_ties total ties).mp (List.mem_cons_self (a := a))
    | cons b rest' =>
      -- Each head stands in the other list, so neither is above the other.
      have below := head_le total sorted ((mem_iff_of_ties total ties).mpr List.mem_cons_self)
      have above := head_le total sorted' ((mem_iff_of_ties total ties).mp List.mem_cons_self)
      have heads := ties a
      rw [List.filter_cons_of_pos (tied_self total a),
        List.filter_cons_of_pos (by simp [tied, above, below])] at heads
      obtain ⟨rfl, _⟩ := List.cons.inj heads
      refine congrArg (a :: ·) (ih sorted.of_cons sorted'.of_cons fun c => ?_)
      have both := ties c
      rw [List.filter_cons, List.filter_cons] at both
      split at both
      · exact (List.cons.inj both).2
      · exact both

include trans

theorem eq_sortBy {l l' : List α} (sorted : l.Pairwise fun x y => le x y = true)
    (ties : ∀ a, l.filter (tied le a) = l'.filter (tied le a)) : l = sortBy le l' := by
  refine ascending_eq total sorted (sortBy_ascending total trans l') fun a => ?_
  rw [ties, sortBy_ties trans]

theorem sortBy_filter (p : α → Bool) (l : List α) :
    sortBy le (l.filter p) = (sortBy le l).filter p := by
  refine (eq_sortBy total trans ((sortBy_ascending total trans l).filter p) fun a => ?_).symm
  rw [List.filter_comm, sortBy_ties trans, List.filter_comm]

end Order

/-! ### One element more -/

theorem insertSorted_splits (le : α → α → Bool) (a : α) (l : List α) :
    ∃ before after, l = before ++ after ∧ insertSorted le a l = before ++ a :: after := by
  induction l with
  | nil => exact ⟨[], [], rfl, rfl⟩
  | cons b rest ih =>
    unfold insertSorted
    split
    · exact ⟨[], b :: rest, rfl, rfl⟩
    · obtain ⟨before, after, whole, inserted⟩ := ih
      exact ⟨b :: before, after, by rw [whole]; rfl, by rw [inserted]; rfl⟩

theorem insertSorted_beside (trans : ∀ a b c, le a b = true → le b c = true → le a c = true)
    (a x : α) {before after : List α}
    (sorted : (before ++ a :: after).Pairwise fun x y => le x y = true) :
    ∃ before' after', insertSorted le x (before ++ after) = before' ++ after' ∧
      insertSorted le x (before ++ a :: after) = before' ++ a :: after' := by
  induction before with
  | nil =>
    by_cases below : le x a = true
    · have first : insertSorted le x after = x :: after := by
        cases after with
        | nil => rfl
        | cons b rest =>
          have least := (List.pairwise_cons.mp sorted).1 b List.mem_cons_self
          rw [insertSorted, if_pos (trans x a b below least)]
      exact ⟨[x], after, first, by simp [insertSorted, below]⟩
    · exact ⟨[], insertSorted le x after, rfl, by simp [insertSorted, below]⟩
  | cons b rest ih =>
    by_cases below : le x b = true
    · exact ⟨x :: b :: rest, after, by simp [insertSorted, below],
        by simp [insertSorted, below]⟩
    · obtain ⟨before', after', without, with_a⟩ := ih (List.pairwise_cons.mp sorted).2
      exact ⟨b :: before', after', by simp [insertSorted, below, without],
        by simp [insertSorted, below, with_a]⟩

/-- With one element more, all others keep their places among one another. -/
theorem sortBy_insert (total : ∀ a b, le a b = true ∨ le b a = true)
    (trans : ∀ a b c, le a b = true → le b c = true → le a c = true) (l : List α) (a : α)
    (l' : List α) :
    ∃ before after, sortBy le (l ++ l') = before ++ after ∧
      sortBy le (l ++ a :: l') = before ++ a :: after := by
  induction l with
  | nil => exact insertSorted_splits le a (sortBy le l')
  | cons x rest ih =>
    obtain ⟨before, after, without, with_a⟩ := ih
    have sorted := sortBy_ascending total trans (rest ++ a :: l')
    rw [with_a] at sorted
    rw [List.cons_append, List.cons_append, sortBy, sortBy, without, with_a]
    exact insertSorted_beside trans a x sorted

end SoundLaw
