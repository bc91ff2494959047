import SoundLaw.Proofs.Similarity.Normed

/-!
Searches with threshold zero. They find the entries that sound as the query does, token by token,
and all of them with distance zero, so that they stand in the order of the lexicon.
-/
namespace SoundLaw
open Scale

theorem agree_iff (a b : List Text) : Agree a b ↔
    (∀ f ∈ Feature.types, f ∈ a ↔ f ∈ b) ∧ (∃ f ∈ Feature.manners, f ∈ a ∧ f ∈ b) ∧
      (∃ f ∈ Feature.places, f ∈ a ∧ f ∈ b) ∧ (∀ f ∈ Feature.voicings, f ∈ a ↔ f ∈ b) ∧
      ∀ f ∈ a ++ b, f ∉ Feature.classified → (f ∈ a ↔ f ∈ b) := by
  constructor
  · rintro ⟨types, manner, place, voicing, rest⟩
    exact ⟨types, manner, place, voicing, fun f _ => rest f⟩
  · rintro ⟨types, manner, place, voicing, rest⟩
    refine ⟨types, manner, place, voicing, fun f outside => ⟨fun inA => ?_, fun inB => ?_⟩⟩
    · exact (rest f (List.mem_append_left b inA) outside).mp inA
    · exact (rest f (List.mem_append_right a inB) outside).mpr inB

instance (a b : List Text) : Decidable (Agree a b) := decidable_of_iff _ (agree_iff a b).symm

instance (m : Model) (a b : Text) : Decidable (Alike m a b) :=
  inferInstanceAs (Decidable (_ ∨ _))

/-- An entry with tokens, as many as the query has and each of them alike. -/
def SoundsAs (m : Model) (inventory : List Text) (query : Text) (e : LexiconEntry) : Prop :=
  tokenize inventory e.phonetic ≠ [] ∧
    List.Forall₂ (Alike m) (tokenize inventory query) (tokenize inventory e.phonetic)

instance (m : Model) (inventory : List Text) (query : Text) (e : LexiconEntry) :
    Decidable (SoundsAs m inventory query e) :=
  inferInstanceAs (Decidable (_ ∧ _))

def exactHits (α : Type) [Scale α] (m : Model) (inventory : List Text) (query : Text)
    (entries : List LexiconEntry) : List (Hit α) :=
  (entries.filter fun e => SoundsAs m inventory query e).map fun e => ⟨e, 0.0⟩

theorem tokenize_eq_nil_iff (inventory : List Text) (word : Text) :
    tokenize inventory word = [] ↔ word = [] := by
  constructor
  · intro none
    rw [← spell_tokenize inventory word, none]
    rfl
  · rintro rfl
    rfl

section
variable {α : Type} [Scale α] [Measuring α] {m : Model} {inventory : List Text} {query : Text}
  {threshold : α} {entries : List LexiconEntry}

theorem PositiveUnless.atMost_iff {p : Prop} {x : α} (positive : PositiveUnless p x)
    (zero : equal threshold 0.0 = true) : atMost x threshold = true ↔ p := by
  rw [equal, Bool.and_eq_true] at zero
  rcases positive with ⟨yes, rfl⟩ | ⟨no, above⟩
  · exact iff_of_true zero.2 yes
  · refine iff_of_false (fun below => ?_) no
    exact ((Ordered.less_iff _ _).mp above).2 (Ordered.trans below zero.1)

theorem hit?_exact (counts : Counts α m) (zero : equal threshold 0.0 = true) (e : LexiconEntry)
    (holds : Measuring.Holds α (tokenize inventory query).length)
    (holds' : Measuring.Holds α (tokenize inventory e.phonetic).length) :
    hit? m inventory query threshold e =
      if SoundsAs m inventory query e then some ⟨e, 0.0⟩ else none := by
  have distance : PositiveUnless _ (wordDistance m inventory query e.phonetic : α) :=
    normalizedDistance_positive_unless counts holds holds'
  have near : (e.phonetic ≠ [] ∧ atMost (wordDistance m inventory query e.phonetic) threshold = true)
      ↔ SoundsAs m inventory query e := by
    rw [SoundsAs, distance.atMost_iff zero, Ne, Ne, tokenize_eq_nil_iff]
  rw [hit?_eq]
  by_cases sounds : SoundsAs m inventory query e
  · rw [if_pos (near.mpr sounds), if_pos sounds]
    rcases distance with ⟨_, same⟩ | ⟨unlike, _⟩
    · rw [same]
    · exact absurd sounds.2 unlike
  · rw [if_neg (mt near.mp sounds), if_neg sounds]

theorem filterMap_hit?_exact (counts : Counts α m) (zero : equal threshold 0.0 = true)
    (holds : Measuring.Holds α (tokenize inventory query).length)
    (all : ∀ e ∈ entries, Measuring.Holds α (tokenize inventory e.phonetic).length) :
    entries.filterMap (hit? m inventory query threshold) =
      exactHits α m inventory query entries := by
  induction entries with
  | nil => rfl
  | cons e rest ih =>
    obtain ⟨holds', later⟩ := List.forall_mem_cons.mp all
    rw [List.filterMap_cons, hit?_exact counts zero e holds holds', ih later, exactHits, exactHits,
      List.filter_cons]
    by_cases sounds : SoundsAs m inventory query e
    · simp [sounds]
    · simp [sounds]

theorem search_eq_exactHits (counts : Counts α m) (spoken : query.strip ≠ [])
    (zero : equal threshold 0.0 = true)
    (holds : Measuring.Holds α (tokenize inventory query.strip).length)
    (all : ∀ e ∈ entries, Measuring.Holds α (tokenize inventory e.phonetic).length) :
    search m inventory query entries threshold = exactHits α m inventory query.strip entries := by
  rw [search_eq entries threshold spoken, filterMap_hit?_exact counts zero holds all]
  refine sortBy_eq_self fun a first b second => ?_
  obtain ⟨_, _, rfl⟩ := List.mem_map.mp first
  obtain ⟨_, _, rfl⟩ := List.mem_map.mp second
  rw [nearer, Measuring.zero, Bool.true_or]

end

/-- A search with threshold zero finds the entries whose tokens are alike those of the query, one by
one, in the order of the lexicon and each with distance zero. -/
theorem search_exact (m : Model) (inventory : List Text) (query : Text)
    (entries : List LexiconEntry) (spoken : query.strip ≠ []) :
    (∀ threshold : Rat, equal threshold 0.0 = true →
      search m inventory query entries threshold =
        exactHits Rat m inventory query.strip entries) ∧
    (m.Sized → query.length < 2 ^ 53 → (∀ e ∈ entries, e.phonetic.length < 2 ^ 53) →
      ∀ threshold : Float, equal threshold 0.0 = true →
        search m inventory query entries threshold =
          exactHits Float m inventory query.strip entries) := by
  constructor
  · intro threshold zero
    exact search_eq_exactHits (fun _ _ _ _ => trivial) spoken zero trivial fun _ _ => trivial
  · intro sized short shorts threshold zero
    have shorter := length_tokenize_strip_le inventory query
    refine search_eq_exactHits sized.counts spoken zero (shorter.trans_lt short) ?_
    intro e member
    exact (length_tokenize_le inventory e.phonetic).trans_lt (shorts e member)

def coronals : Model :=
  .ofList [("t", ["consonant", "stop", "alveolar"]),
    ("ts", ["consonant", "stop", "affricate", "alveolar"]),
    ("d", ["consonant", "stop", "alveolar", "voiced"])]

def syllabary : List LexiconEntry :=
  [⟨['1'], [], "da", [], []⟩, ⟨['2'], [], [], [], []⟩, ⟨['3'], [], "tsa", [], []⟩,
    ⟨['4'], [], "ta", [], []⟩]

theorem search_exact_coronals :
    coronals.Sized ∧ equal (0.0 : Float) 0.0 = true ∧
      search coronals ["ts"] " ta" syllabary (0.0 : Float) =
        exactHits Float coronals ["ts"] "ta" syllabary ∧
      (exactHits Float coronals ["ts"] "ta" syllabary).map (·.entry.id) = [['3'], ['4']] := by
  have sized : coronals.Sized := by unfold Model.Sized; decide
  obtain ⟨_, floating⟩ := search_exact coronals ["ts"] " ta" syllabary (by decide)
  have found := floating sized (by decide) (by decide) 0.0 (by decide)
  exact ⟨sized, by decide, found, by decide +kernel⟩

end SoundLaw
