import SoundLaw.Proofs.Phonology.Model
import SoundLaw.Proofs.Rule.Pair
import SoundLaw.Proofs.Rule.Tokens

/-!
Feature rules change all tokens of a word at once. Whether a token changes is a matter of the
word and of the tokens beside it as they were before the rule; what a rule made of one token no
other token sees.
-/
namespace SoundLaw

def leftOf (previous : Option Text) (tokens : List Text) : Nat → Option Text
  | 0 => previous
  | i + 1 => tokens[i]?

def alteredPlaces (olds news : List Text) : List Nat :=
  (List.range olds.length).filter fun i => olds[i]? ≠ news[i]?

def Model.Admits (m : Model) (context : Option Expression) (neighbour : Option Text) : Prop :=
  ∀ e, context = some e →
    (e.positive = [] ∧ e.negative = []) ∨ ∃ t, neighbour = some t ∧ m.Answers e t

namespace FeatureRule
variable {r : FeatureRule} {m : Model}

/-- When a rule reaches the token at a place of a word. -/
structure Reaches (r : FeatureRule) (m : Model) (target : Expression) (word : Text)
    (tokens : List Text) (i : Nat) : Prop where
  answers : ∃ token, tokens[i]? = some token ∧ m.Answers target token
  unexcepted : ∀ e ∈ r.exceptions, e ≠ [] → ¬ e <:+: word
  before : m.Admits r.before (leftOf none tokens i)
  after : m.Admits r.after tokens[i + 1]?

def detail (replacement : Replacement) (old new : Text) : Text :=
  old ++ "→" ++ new ++ " [" ++ replacement.summary ++ "]"

theorem contextHolds_iff (context : Option Expression) (neighbour : Option Text) :
    contextHolds m context neighbour = true ↔ m.Admits context neighbour := by
  cases context with
  | none => simp [contextHolds, Model.Admits]
  | some e =>
    simp [contextHolds, Model.Admits, Expression.isEmpty, Option.any_eq_true, Model.describes_iff]

/-! ### One token among its neighbours -/

theorem shiftFrom_getElem? (target : Expression) (replacement : Replacement)
    (previous : Option Text) (tokens : List Text) (i : Nat) :
    (shiftFrom r m target replacement previous tokens)[i]? = tokens[i]?.map fun token =>
      shift r m target replacement (leftOf previous tokens i) token tokens[i + 1]? := by
  induction tokens generalizing previous i with
  | nil => simp [shiftFrom]
  | cons token rest ih =>
    cases i with
    | zero => simp [shiftFrom, leftOf, List.head?_eq_getElem?]
    | succ i =>
      have left : leftOf (some token) rest i = leftOf previous (token :: rest) (i + 1) := by
        cases i <;> rfl
      simp [shiftFrom, ih, left]

/-- The tokens after a rule, place by place. -/
theorem tokensAfter_getElem? {target : Expression} {replacement : Replacement}
    (aimed : r.target = some target) (known : r.replacement = some replacement)
    (inventory : List Text) (word : Text) {i : Nat} {token : Text}
    (here : (tokensBefore m inventory word)[i]? = some token) :
    ∃ new, (r.tokensAfter m inventory word)[i]? = some new ∧
      (r.Reaches m target word (tokensBefore m inventory word) i →
        new = m.replace replacement token) ∧
      (¬ r.Reaches m target word (tokensBefore m inventory word) i → new = token) := by
  unfold tokensAfter
  rw [aimed, known]
  dsimp only
  by_cases excepted : hasException word r.exceptions = true
  · refine ⟨token, by rw [if_pos excepted, here], ?_, fun _ => rfl⟩
    intro reached
    obtain ⟨e, member, filled, inside⟩ := (hasException_iff word r.exceptions).mp excepted
    exact absurd inside (reached.unexcepted e member filled)
  · rw [if_neg excepted, shiftFrom_getElem?, here]
    refine ⟨shift r m target replacement (leftOf none _ i) token _, rfl, ?_, ?_⟩
    · intro reached
      obtain ⟨t, same, answers⟩ := reached.answers
      rw [here, Option.some.injEq] at same
      subst same
      rw [shift, (Model.describes_iff target).mpr answers,
        (contextHolds_iff r.before _).mpr reached.before,
        (contextHolds_iff r.after _).mpr reached.after]
      rfl
    · intro unreached
      rw [shift, if_neg]
      intro all
      simp only [Bool.and_eq_true, Model.describes_iff, contextHolds_iff] at all
      refine unreached ⟨⟨token, here, all.1.1⟩, ?_, all.1.2, all.2⟩
      intro e member filled inside
      exact excepted ((hasException_iff word r.exceptions).mpr ⟨e, member, filled, inside⟩)

/-! ### The details -/

theorem alteredPlaces_cons (old new : Text) (olds news : List Text) :
    alteredPlaces (old :: olds) (new :: news) =
      (if old = new then [] else [0]) ++ (alteredPlaces olds news).map (· + 1) := by
  unfold alteredPlaces
  rw [List.length_cons, List.range_succ_eq_map, List.filter_cons]
  by_cases same : old = new <;> simp [same, List.filter_map, Function.comp_def]

theorem changes_eq (replacement : Replacement) {olds news : List Text}
    (same_length : news.length = olds.length) :
    changes replacement olds news = (alteredPlaces olds news).map fun i =>
      detail replacement (olds.getD i []) (news.getD i []) := by
  induction olds generalizing news with
  | nil =>
    have empty : news = [] := List.length_eq_zero_iff.mp same_length
    subst empty
    rfl
  | cons old olds ih =>
    cases news with
    | nil => cases same_length
    | cons new news =>
      have shorter := ih (Nat.succ.inj same_length)
      rw [alteredPlaces_cons, changes]
      by_cases same : old = new <;> simp [same, shorter, detail]

theorem mem_alteredPlaces {olds news : List Text} {i : Nat} :
    i ∈ alteredPlaces olds news ↔ i < olds.length ∧ olds[i]? ≠ news[i]? := by
  simp [alteredPlaces]

theorem tokensAfter_length (r : FeatureRule) (m : Model) (inventory : List Text) (word : Text) :
    (r.tokensAfter m inventory word).length = (tokensBefore m inventory word).length := by
  unfold tokensAfter
  split
  · split
    · rfl
    · exact shiftFrom_length _ _ none _
  · rfl

theorem apply_details_eq {target : Expression} {replacement : Replacement}
    (aimed : r.target = some target) (known : r.replacement = some replacement)
    (inventory : List Text) (word : Text) :
    (r.apply m inventory word).details =
      changes replacement (tokensBefore m inventory word) (r.tokensAfter m inventory word) := by
  unfold apply tokensAfter
  rw [aimed, known]
  rfl

/-- A rule makes of each token what the tokens as they were call for. A token stays or becomes a
phoneme of the model; one that the model does not know stays. The details tell of each token that
changed, from left to right, and the rule reports a change just where there is one. -/
theorem tokens_shift_at_once (r : FeatureRule) (m : Model) (inventory : List Text) (word : Text)
    (target : Expression) (replacement : Replacement) (aimed : r.target = some target)
    (known : r.replacement = some replacement) :
    let tokens := tokenize (if inventory = [] then m.phonemes else inventory) word
    ∃ news : List Text, news.length = tokens.length ∧
      (r.apply m inventory word).result = news.flatten ∧
      (∀ i token new, tokens[i]? = some token → news[i]? = some new →
        (r.Reaches m target word tokens i → new = m.replace replacement token) ∧
        (¬ r.Reaches m target word tokens i → new = token) ∧
        (new = token ∨ new ∈ m.phonemes) ∧ (token ∉ m.phonemes → new = token)) ∧
      (r.apply m inventory word).details =
        (alteredPlaces tokens news).map (fun i =>
          detail replacement (tokens.getD i []) (news.getD i [])) ∧
      ((r.apply m inventory word).changed = true ↔
        ∃ i < tokens.length, tokens[i]? ≠ news[i]?) := by
  have cut : tokenize (if inventory = [] then m.phonemes else inventory) word =
      tokensBefore m inventory word := by
    simp [tokensBefore]
  intro tokens
  have same_length := tokensAfter_length r m inventory word
  have details := (apply_details_eq (m := m) aimed known inventory word).trans
    (changes_eq replacement same_length)
  refine ⟨r.tokensAfter m inventory word, ?_, apply_result r m inventory word, ?_, ?_, ?_⟩
  · exact same_length.trans (congrArg List.length cut.symm)
  · intro i token new here after
    rw [show tokens = tokensBefore m inventory word from cut] at here ⊢
    obtain ⟨made, there, reached, unreached⟩ :=
      tokensAfter_getElem? aimed known inventory word here
    rw [after, Option.some.injEq] at there
    subst there
    refine ⟨reached, unreached, ?_, ?_⟩
    · by_cases reaches : r.Reaches m target word (tokensBefore m inventory word) i
      · rw [reached reaches]
        exact Model.replace_mem replacement
      · exact Or.inl (unreached reaches)
    · intro unknown
      refine unreached fun reaches => ?_
      obtain ⟨t, same, features, member, _⟩ := reaches.answers
      rw [here, Option.some.injEq] at same
      subst same
      exact unknown (List.mem_map.mpr ⟨_, member, rfl⟩)
  · rw [show tokens = tokensBefore m inventory word from cut]
    exact details
  · rw [show tokens = tokensBefore m inventory word from cut, apply_details, details]
    simp [List.eq_nil_iff_forall_not_mem, mem_alteredPlaces]

def voicing : FeatureRule :=
  ⟨['v'], [], some ⟨["stop"], ["voiced"], by decide⟩, some ⟨["voiced"], []⟩,
    some ⟨["stop"], ["voiced"], by decide⟩, none, ["bb"]⟩

/-- In a row of voiceless stops each but the first is voiced, as the one before was voiceless. -/
theorem tokens_shift_at_once_row :
    ∃ news : List Text, news.length = 3 ∧ news.flatten = ("pbb" : Text) ∧
      ∃ i < 3, (["p", "p", "p"] : List Text)[i]? ≠ news[i]? := by
  obtain ⟨news, same_length, result, _, _, changed⟩ :=
    tokens_shift_at_once voicing (.ofList [("p", ["stop"]), ("b", ["stop", "voiced"])]) [] "ppp"
      _ _ rfl rfl
  exact ⟨news, same_length.trans (by decide), result.symm.trans (by decide),
    changed.mp (by decide)⟩

end FeatureRule
end SoundLaw
