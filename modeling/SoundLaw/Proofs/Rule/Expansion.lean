import SoundLaw.Rule.Context
import SoundLaw.Proofs.Phonology.Segmentation
import SoundLaw.Proofs.Regex.Words
import SoundLaw.Proofs.Sorting

/-!
The expansion of a context. Searching for the pattern of all macro names goes over the context
once and finds at each place the longest name that stands there, because the names are tried from
the longest to the shortest.
-/
namespace SoundLaw
open Regex

/-! ### The first name that is tried -/

theorem longer_total (a b : Text) :
    decide (b.length ≤ a.length) = true ∨ decide (a.length ≤ b.length) = true := by
  simpa using Nat.le_total b.length a.length

theorem longer_trans (a b c : Text) (first : decide (b.length ≤ a.length) = true)
    (second : decide (c.length ≤ b.length) = true) : decide (c.length ≤ a.length) = true := by
  simp only [decide_eq_true_eq] at first second ⊢
  exact Nat.le_trans second first

theorem longestFirst_descending (l : List Text) :
    (longestFirst l).Pairwise fun a b => b.length ≤ a.length := by
  have sorted := sortBy_ascending longer_total longer_trans l
  simpa only [longestFirst, decide_eq_true_eq] using sorted

theorem mem_longestFirst {t : Text} {l : List Text} : t ∈ longestFirst l ↔ t ∈ l := mem_sortBy _

theorem longestFirst_ne_nil {l : List Text} (some : l ≠ []) : longestFirst l ≠ [] := by
  obtain ⟨t, member⟩ := List.exists_mem_of_ne_nil l some
  exact List.ne_nil_of_mem (mem_longestFirst.mpr member)

variable {names before after : List Text} {first text : Text}

theorem longestEntry_of_first (filled : [] ∉ names)
    (split : longestFirst names = before ++ first :: after) (begins : first <+: text)
    (earlier : ∀ other ∈ before, ¬ other <+: text) : LongestEntry names first text := by
  have member : first ∈ names :=
    mem_longestFirst.mp (split ▸ List.mem_append_right before List.mem_cons_self)
  refine ⟨member, fun empty => filled (empty ▸ member), begins, fun other listed starts => ?_⟩
  have place := mem_longestFirst.mpr listed
  have descending := longestFirst_descending names
  rw [split] at place descending
  rcases List.mem_append.mp place with passed | later
  · exact absurd starts (earlier other passed)
  · rcases List.mem_cons.mp later with rfl | later
    · exact Nat.le_refl _
    · exact (List.pairwise_cons.mp (List.pairwise_append.mp descending).2.1).1 other later

theorem find_longestFirst (filled : [] ∉ names) (text : Text) :
    (longestFirst names).find? (·.isPrefixOf text) =
      if longestAt text names = [] then none else some (longestAt text names) := by
  cases found : (longestFirst names).find? (·.isPrefixOf text) with
  | none =>
    have nowhere := List.find?_eq_none.mp found
    rw [if_pos]
    by_contra stands
    have entry := longestAt_longestEntry stands
    exact nowhere _ (mem_longestFirst.mpr entry.member)
      (List.isPrefixOf_iff_prefix.mpr entry.begins)
  | some name =>
    obtain ⟨here, before, after, split, earlier⟩ := List.find?_eq_some_iff_append.mp found
    have entry : LongestEntry names name text := by
      refine longestEntry_of_first filled split (List.isPrefixOf_iff_prefix.mp here) ?_
      intro other passed begins
      have fails := earlier other passed
      rw [List.isPrefixOf_iff_prefix.mpr begins] at fails
      cases fails
    have stands : longestAt text names ≠ [] := by
      have bound := longestAt_longest text entry.member entry.begins
      have positive := List.length_pos_iff.mpr entry.nonempty
      exact List.length_pos_iff.mp (Nat.lt_of_lt_of_le positive bound)
    rw [if_neg stands, entry.unique (longestAt_longestEntry stands)]

/-! ### The search for names -/

namespace Macros

/-- A context cut at its macro names, at each place the longest one. -/
def pieces (macros : Macros) (context : Text) : List Text := tokenize macros.names context

def pieceText (macros : Macros) (piece : Text) : Text :=
  if piece ∈ macros.names then alternation (macros.members piece) else piece

theorem pieces_flatten (macros : Macros) (context : Text) :
    (macros.pieces context).flatten = context := spell_tokenize macros.names context

variable {macros others : Macros} {name context out : Text} {members ordered : List Text}

theorem matchLength_names (some : macros.names ≠ []) (filled : [] ∉ macros.names)
    (before after : Text) (forbidEmpty : Bool) :
    matchLength? (anyOf [] (longestFirst macros.names)) before after forbidEmpty =
      if longestAt after macros.names = [] then none
      else Option.some (longestAt after macros.names).length := by
  rw [matchLength_anyOf rfl (longestFirst_ne_nil some) (mem_longestFirst.not.mpr filled),
    find_longestFirst filled]
  split <;> rfl

theorem replaceFrom_pieces {p : Pattern}
    (spec : ∀ before after forbidEmpty, matchLength? p before after forbidEmpty =
      if longestAt after macros.names = [] then none
      else some (longestAt after macros.names).length)
    (skip : Nat) (before context : Text) :
    replaceFrom p (fun name => alternation (macros.members name)) skip before context =
      (cutFrom macros.names skip context).flatMap macros.pieceText := by
  induction context generalizing skip before with
  | nil =>
    have nowhere : longestAt [] macros.names = [] := by
      have begins := longestAt_prefix [] macros.names
      exact List.prefix_nil.mp begins
    cases skip <;> simp [replaceFrom, cutFrom, spec, nowhere]
  | cons c rest ih =>
    cases skip with
    | succ n => simp only [replaceFrom, cutFrom, ih]
    | zero =>
      cases name : longestAt (c :: rest) macros.names with
      | nil =>
        have single : [c] ∉ macros.names := character_not_entry name
        rw [cutFrom_character name]
        simp [replaceFrom, spec, name, ih, pieceText, single]
      | cons d more =>
        have entry := longestAt_longestEntry (name ▸ List.cons_ne_nil d more)
        rw [name] at entry
        obtain ⟨rfl, begins⟩ := List.cons_prefix_cons.mp entry.begins
        have taken : rest.take more.length = more := (List.prefix_iff_eq_take.mp begins).symm
        rw [cutFrom_entry name, replaceFrom, spec, name]
        simp [ih, pieceText, entry.member, taken]

/-- The expansion puts the pieces of the context one after the other, and for each macro name the
alternatives of its macro. -/
theorem expandContext_pieces (macros : Macros) {context : Text} (inner : context ≠ boundary) :
    expandContext macros context =
      (macros.usable.pieces context).flatMap macros.usable.pieceText := by
  by_cases empty : context = []
  · subst empty
    rfl
  cases table : macros.usable with
  | nil =>
    have plain : pieceText [] = id := by
      funext piece
      simp [pieceText, names]
    rw [expandContext, table, plain, List.flatMap_id, pieces_flatten]
    simp
  | cons m rest =>
    have filled : [] ∉ macros.usable.names := by
      simp [names, usable]
    have some : macros.usable.names ≠ [] := by simp [names, table]
    rw [← table, expandContext, if_neg (by simp [empty, inner, table]), anyTextOf,
      show List.intercalate "|".toList = List.intercalate ['|'] from rfl,
      compile_texts (longestFirst_ne_nil some)]
    exact replaceFrom_pieces (matchLength_names some filled) 0 [] context

/-! ### One pass over a context -/

/-- A macro that can stand in a context: it has a name and members. -/
def Usable (macros : Macros) (name : Text) (members : List Text) : Prop :=
  (name, members) ∈ macros ∧ name ≠ [] ∧ members ≠ []

/-- The usable macro whose name begins the text, and no longer name does. -/
structure LongestName (macros : Macros) (name : Text) (members : List Text) (text : Text) :
    Prop where
  usable : macros.Usable name members
  begins : name <+: text
  longest : ∀ other list, macros.Usable other list → other <+: text → other.length ≤ name.length

def Nameless (macros : Macros) (text : Text) : Prop :=
  ∀ name members, macros.Usable name members → ¬ name <+: text

/-- The same texts from the longest to the shortest, where texts of one length keep their places. -/
structure LongestFirst (l ordered : List Text) : Prop where
  descending : ordered.Pairwise fun a b => b.length ≤ a.length
  stable : ∀ n, (ordered.filter fun t => t.length = n) = l.filter fun t => t.length = n

/-- One pass over a context. Where a macro name stands, the longest one is taken for its escaped
members, and the pass goes on behind the name; where none stands, a character is copied. What has
been put is not looked at again. -/
inductive Expands (macros : Macros) : Text → Text → Prop
  | done : Expands macros [] []
  | name {name text rest out : Text} {members ordered : List Text}
      (here : macros.LongestName name members text) (split : text = name ++ rest)
      (order : LongestFirst members ordered) (more : Expands macros rest out) :
      Expands macros text
        ("(?:" ++ List.intercalate "|".toList (ordered.map escapeText) ++ ")" ++ out)
  | copy {c : Char} {rest out : Text} (none : macros.Nameless (c :: rest))
      (more : Expands macros rest out) : Expands macros (c :: rest) (c :: out)

theorem longestFirst_order (l : List Text) : LongestFirst l (longestFirst l) where
  descending := longestFirst_descending l
  stable n := by
    refine sortBy_stable (fun a b first second => ?_) l
    simp only [decide_eq_true_eq] at first second ⊢
    exact Nat.le_of_eq (second.trans first.symm)

theorem LongestFirst.eq (order : LongestFirst members ordered) :
    ordered = longestFirst members := by
  refine eq_sortBy longer_total longer_trans ?_ fun t => ?_
  · simpa only [decide_eq_true_eq] using order.descending
  · -- Texts are tied just where they are of one length.
    have same : tied (fun a b : Text => decide (b.length ≤ a.length)) t =
        fun u => decide (u.length = t.length) := by
      funext u
      rw [tied, Bool.eq_iff_iff]
      simp only [Bool.and_eq_true, decide_eq_true_eq]
      omega
    rw [same]
    exact order.stable t.length

theorem mem_usable : (name, members) ∈ macros.usable ↔ macros.Usable name members := by
  simp [usable, Usable]

theorem mem_usable_names : name ∈ macros.usable.names ↔ ∃ l, macros.Usable name l := by
  simp only [names, List.mem_map, Prod.exists, mem_usable]
  constructor
  · rintro ⟨_, l, usable, rfl⟩
    exact ⟨l, usable⟩
  · rintro ⟨l, usable⟩
    exact ⟨name, l, usable, rfl⟩

theorem members_eq (once : macros.names.Nodup) (member : (name, members) ∈ macros) :
    macros.members name = members := by
  induction macros with
  | nil => cases member
  | cons m rest ih =>
    obtain ⟨n, l⟩ := m
    obtain ⟨fresh, once⟩ := List.nodup_cons.mp once
    rcases List.mem_cons.mp member with same | later
    · obtain ⟨rfl, rfl⟩ := Prod.mk.inj same
      exact if_pos rfl
    · have other : n ≠ name := by
        rintro rfl
        exact fresh (List.mem_map.mpr ⟨_, later, rfl⟩)
      rw [Macros.members, if_neg other]
      exact ih once later

theorem usable_names_nodup (once : macros.names.Nodup) : macros.usable.names.Nodup :=
  once.sublist (List.filter_sublist.map Prod.fst)

theorem usable_members_eq (once : macros.names.Nodup) (usable : macros.Usable name members) :
    macros.usable.members name = members :=
  members_eq (usable_names_nodup once) (mem_usable.mpr usable)

/-! ### The pass that is made -/

theorem expands_pieces (once : macros.names.Nodup) {pieces : List Text}
    (segments : Segments macros.usable.names context pieces) :
    macros.Expands context (pieces.flatMap macros.usable.pieceText) := by
  induction pieces generalizing context with
  | nil =>
    rw [segments_nil_iff.mp segments]
    exact .done
  | cons piece pieces ih =>
    obtain ⟨rest, split, first, later⟩ := segments_cons_iff.mp segments
    rw [List.flatMap_cons]
    rcases first with entry | ⟨unlisted, c, _, text, rfl⟩
    · obtain ⟨members, usable⟩ := mem_usable_names.mp entry.member
      have longest : macros.LongestName piece members context :=
        ⟨usable, entry.begins, fun other list listed begins =>
          entry.longest other (mem_usable_names.mpr ⟨list, listed⟩) begins⟩
      rw [pieceText, if_pos entry.member, usable_members_eq once usable]
      exact .name longest split (longestFirst_order members) (ih later)
    · have none : macros.Nameless context := fun name members usable =>
        unlisted name (mem_usable_names.mpr ⟨members, usable⟩) usable.2.1
      have single : [c] ∉ macros.usable.names := fun member =>
        unlisted [c] member (List.cons_ne_nil c []) ⟨rest, split.symm⟩
      rw [split] at none ⊢
      rw [pieceText, if_neg single]
      exact .copy none (ih later)

theorem LongestName.unique (once : macros.names.Nodup) {name' : Text} {members' : List Text}
    (first : macros.LongestName name members context)
    (second : macros.LongestName name' members' context) : name = name' ∧ members = members' := by
  have longer := first.longest _ _ second.usable second.begins
  have shorter := second.longest _ _ first.usable first.begins
  obtain rfl : name = name' :=
    (List.prefix_of_prefix_length_le first.begins second.begins shorter).eq_of_length_le longer
  exact ⟨rfl, (members_eq once first.usable.1).symm.trans (members_eq once second.usable.1)⟩

theorem Expands.unique (once : macros.names.Nodup) {out' : Text}
    (first : macros.Expands context out) (second : macros.Expands context out') : out = out' := by
  induction first generalizing out' with
  | done =>
    cases second with
    | done => rfl
    | name here split =>
      exact absurd (List.append_eq_nil_iff.mp split.symm).1 here.usable.2.1
  | name here split order _ ih =>
    cases second with
    | done => exact absurd (List.append_eq_nil_iff.mp split.symm).1 here.usable.2.1
    | name here' split' order' more' =>
      obtain ⟨rfl, rfl⟩ := here.unique once here'
      obtain rfl := List.append_cancel_left (split.symm.trans split')
      rw [order.eq, order'.eq, ih more']
    | copy none => exact absurd here.begins (none _ _ here.usable)
  | copy none _ ih =>
    cases second with
    | name here => exact absurd here.begins (none _ _ here.usable)
    | copy _ more' => rw [ih more']

theorem Expands.of_same_macros
    (same : ∀ name members, macros.Usable name members ↔ others.Usable name members)
    (pass : macros.Expands context out) : others.Expands context out := by
  induction pass with
  | done => exact .done
  | name here split order _ ih =>
    refine .name ⟨(same _ _).mp here.usable, here.begins, fun other list usable begins => ?_⟩
      split order ih
    exact here.longest other list ((same other list).mpr usable) begins
  | copy none _ ih =>
    exact .copy (fun name members usable => none name members ((same name members).mpr usable)) ih

end Macros

/-- The expansion of a context that is not the boundary sign is the one pass over it that puts the
alternatives of the longest name at each place. Tables with the same usable macros, in whatever row,
expand every such context alike. -/
theorem expandContext_one_pass (macros : Macros) (once : macros.names.Nodup) (context : Text)
    (inner : context ≠ boundary) :
    (∀ out, macros.Expands context out ↔ out = expandContext macros context) ∧
      ∀ others : Macros, others.names.Nodup →
        (∀ name members, others.Usable name members ↔ macros.Usable name members) →
        expandContext others context = expandContext macros context := by
  have pass (macros : Macros) (once : macros.names.Nodup) :
      macros.Expands context (expandContext macros context) := by
    rw [Macros.expandContext_pieces macros inner]
    exact Macros.expands_pieces once (segments_tokenize macros.usable.names context)
  refine ⟨fun out => ⟨fun other => other.unique once (pass macros once), ?_⟩, ?_⟩
  · rintro rfl
    exact pass macros once
  · intro others once' same
    exact ((pass others once').of_same_macros same).unique once (pass macros once)

def overlapping : Macros := [("N", ["n"]), ("NV", ["m."]), (".", ["e", "aa", "o"])]

def overlappingToo : Macros :=
  [(".", ["e", "aa", "o"]), ("V", []), ([], ["x"]), ("NV", ["m."]), ("N", ["n"])]

theorem expandContext_one_pass_overlapping :
    overlapping.Expands "NV.NxV" "(?:m\\.)(?:aa|e|o)(?:n)xV" ∧
      expandContext overlappingToo "NV.NxV" = expandContext overlapping "NV.NxV" := by
  obtain ⟨only, alike⟩ :=
    expandContext_one_pass overlapping (by decide) "NV.NxV" (by decide)
  refine ⟨(only _).mpr (by decide), alike overlappingToo (by decide) fun name members => ?_⟩
  have row : overlappingToo.usable.Perm overlapping.usable := by decide
  rw [← Macros.mem_usable, ← Macros.mem_usable, row.mem_iff]

end SoundLaw
