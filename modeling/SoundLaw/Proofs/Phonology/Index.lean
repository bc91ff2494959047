import SoundLaw.Phonology.Index
import SoundLaw.Proofs.Phonology.Model

/-!
The index of a model holds each phoneme under just the features it has. So looking an expression up
in the index finds the phonemes that it describes, in the order of the model and each once.
-/
namespace SoundLaw

namespace FeatureIndex
variable {feature phoneme : Text}

/-! ### Building the index -/

theorem addCarrier_carriers (feature phoneme other : Text) (l : List (Text × List Text)) :
    Model.findEntry other (addCarrier feature phoneme l) =
      if other = feature then some (phoneme :: (Model.findEntry other l).getD [])
      else Model.findEntry other l := by
  induction l with
  | nil =>
    by_cases same : other = feature
    · simp [addCarrier, Model.findEntry, same]
    · simp [addCarrier, Model.findEntry, same, Ne.symm same]
  | cons entry rest ih =>
    obtain ⟨f, l⟩ := entry
    by_cases here : f = feature
    · subst here
      by_cases same : other = f
      · simp [addCarrier, Model.findEntry, same]
      · simp [addCarrier, Model.findEntry, same, Ne.symm same]
    · by_cases same : f = other
      · subst same
        simp [addCarrier, Model.findEntry, here]
      · simp [addCarrier, Model.findEntry, here, same, ih]

def Listed (carriers : List (Text × List Text)) (feature phoneme : Text) : Prop :=
  phoneme ∈ (Model.findEntry feature carriers).getD []

theorem listed_addCarrier {f p : Text} {carriers : List (Text × List Text)} :
    Listed (addCarrier f p carriers) feature phoneme ↔
      feature = f ∧ phoneme = p ∨ Listed carriers feature phoneme := by
  unfold Listed
  rw [addCarrier_carriers]
  by_cases same : feature = f
  · simp [same]
  · simp [same]

theorem listed_addPhoneme {p : Text} (features : List Text) {carriers : List (Text × List Text)} :
    Listed (addPhoneme carriers (p, features)) feature phoneme ↔
      feature ∈ features ∧ phoneme = p ∨ Listed carriers feature phoneme := by
  unfold addPhoneme
  induction features generalizing carriers with
  | nil => simp
  | cons f rest ih =>
    rw [List.foldl_cons, ih, listed_addCarrier, List.mem_cons]
    tauto

theorem listed_addPhonemes (entries : List (Text × List Text))
    {carriers : List (Text × List Text)} :
    Listed (entries.foldl addPhoneme carriers) feature phoneme ↔
      (∃ features, (phoneme, features) ∈ entries ∧ feature ∈ features) ∨
        Listed carriers feature phoneme := by
  induction entries generalizing carriers with
  | nil => simp
  | cons entry rest ih =>
    obtain ⟨p, own⟩ := entry
    rw [List.foldl_cons, ih, listed_addPhoneme, ← or_assoc]
    refine or_congr_left ⟨?_, ?_⟩
    · rintro (⟨features, member, carried⟩ | ⟨carried, rfl⟩)
      · exact ⟨features, List.mem_cons_of_mem _ member, carried⟩
      · exact ⟨own, List.mem_cons_self, carried⟩
    · rintro ⟨features, member, carried⟩
      rcases List.mem_cons.mp member with here | later
      · cases here
        exact Or.inr ⟨carried, rfl⟩
      · exact Or.inl ⟨features, later, carried⟩

/-- The index of a model is the model turned over. -/
theorem mem_carriersOf {m : Model} :
    phoneme ∈ (ofModel m).carriersOf feature ↔
      ∃ features, (phoneme, features) ∈ m.entries ∧ feature ∈ features :=
  (listed_addPhonemes m.entries).trans (or_iff_left (by simp [Listed, Model.findEntry]))

/-! ### Looking an expression up -/

variable {index : FeatureIndex}

theorem mem_carryingAll_some (features : List Text) {found : List Text} :
    phoneme ∈ index.carryingAll (some found) features ↔
      phoneme ∈ found ∧ ∀ f ∈ features, phoneme ∈ index.carriersOf f := by
  induction features generalizing found with
  | nil => simp [carryingAll]
  | cons f rest ih =>
    rw [carryingAll, List.forall_mem_cons, carriersOf]
    cases index.carriers? f with
    | none => simp
    | some carriers => simp [ih, and_assoc]

theorem mem_carryingAll_none (features : List Text) (known : phoneme ∈ index.order) :
    phoneme ∈ index.carryingAll none features ↔
      ∀ f ∈ features, phoneme ∈ index.carriersOf f := by
  cases features with
  | nil => simp [carryingAll, known]
  | cons f rest =>
    rw [carryingAll, List.forall_mem_cons, carriersOf]
    cases index.carriers? f with
    | none => simp
    | some carriers => simp [mem_carryingAll_some]

theorem mem_without (features : List Text) {found : List Text} :
    phoneme ∈ features.foldl
        (fun left feature => left.filter fun p => p ∉ index.carriersOf feature) found ↔
      phoneme ∈ found ∧ ∀ f ∈ features, phoneme ∉ index.carriersOf f := by
  induction features generalizing found with
  | nil => simp
  | cons f rest ih =>
    rw [List.foldl_cons, ih, List.mem_filter, decide_eq_true_iff, List.forall_mem_cons, and_assoc]

end FeatureIndex

namespace Model
variable {m : Model} {phoneme : Text}

theorem Answers.known {e : Expression} (answers : m.Answers e phoneme) : phoneme ∈ m.phonemes := by
  obtain ⟨features, member, _⟩ := answers
  exact List.mem_map.mpr ⟨(phoneme, features), member, rfl⟩

theorem answers_iff_listed {e : Expression} (known : phoneme ∈ m.phonemes) :
    m.Answers e phoneme ↔
      (∀ f ∈ e.positive, phoneme ∈ (FeatureIndex.ofModel m).carriersOf f) ∧
        ∀ f ∈ e.negative, phoneme ∉ (FeatureIndex.ofModel m).carriersOf f := by
  obtain ⟨⟨p, features⟩, entry, rfl⟩ := List.mem_map.mp known
  -- The phoneme stands once, so what any entry of it says is what this one says.
  have own (others : List Text) : (p, others) ∈ m.entries ↔ others = features := by
    rw [← features?_eq_some_iff, features?_eq_some_iff.mpr entry, Option.some.injEq, eq_comm]
  simp only [Answers, FeatureIndex.mem_carriersOf, own, exists_eq_left]

end Model

/-- What the index of a model finds for an expression are the phonemes of the model that the
expression describes, in their order and each once; and it describes no other text. -/
theorem index_finds_described (m : Model) (e : Expression) :
    (FeatureIndex.ofModel m).matching e = m.phonemes.filter (m.describes e) ∧
      ((FeatureIndex.ofModel m).matching e).Nodup ∧
      ∀ phoneme, phoneme ∉ m.phonemes → m.describes e phoneme = false := by
  have same : (FeatureIndex.ofModel m).matching e = m.phonemes.filter (m.describes e) := by
    refine List.filter_congr fun phoneme known => ?_
    rw [Bool.eq_iff_iff, Model.describes_iff, Model.answers_iff_listed known, decide_eq_true_iff,
      FeatureIndex.mem_without, FeatureIndex.mem_carryingAll_none _ known]
  refine ⟨same, same ▸ m.nodup.filter _, fun phoneme unknown => ?_⟩
  by_contra described
  exact unknown (Model.describes_iff e |>.mp (Bool.not_eq_false _ ▸ described)).known

def labials : Model :=
  .ofList [("p", ["stop", "voiceless"]), ("b", ["stop", "voiced"]), ("m", ["nasal", "voiced"])]

def voicedStop : Expression := ⟨["stop", "stop"], ["voiceless", "tone"], by decide⟩

theorem index_finds_described_labials :
    (FeatureIndex.ofModel labials).matching voicedStop = ["b".toList] ∧
      labials.phonemes.filter (labials.describes voicedStop) = ["b".toList] ∧
      "x".toList ∉ labials.phonemes ∧ labials.describes .none "x" = false := by
  have found := (index_finds_described labials voicedStop).1
  have unknown : "x".toList ∉ labials.phonemes := by decide
  have described : labials.phonemes.filter (labials.describes voicedStop) = ["b".toList] := by
    decide
  exact ⟨found.trans described, described, unknown,
    (index_finds_described labials .none).2.2 _ unknown⟩

end SoundLaw
