import SoundLaw.Similarity.Search
import SoundLaw.Proofs.Similarity.Order
import SoundLaw.Proofs.Sorting

/-!
What a search finds: every entry with a transcription near enough to the query, once and with its
distance, nearest first, entries of one distance as they stand in the lexicon. So a greater
threshold only adds hits at the end, and one entry more only adds its own hit.
-/
namespace SoundLaw
open Scale
variable {α : Type} [Scale α]

/-- The hit of an entry, if it has a transcription not farther from the query than the threshold. -/
def hit? (m : Model) (inventory : List Text) (query : Text) (threshold : α) (e : LexiconEntry) :
    Option (Hit α) :=
  let distance := normalizedDistance m (tokenize inventory query) (tokenize inventory e.phonetic)
  if e.phonetic ≠ [] ∧ atMost distance threshold = true then some ⟨e, distance⟩ else none

/-- Hits in ascending order of distance; those of one distance are as they were. -/
structure Ranked (near found : List (Hit α)) : Prop where
  complete : found.Perm near
  ascending : found.Pairwise fun a b => atMost a.distance b.distance = true
  ties : ∀ distance : α, found.filter (fun h => equal distance h.distance) =
    near.filter fun h => equal distance h.distance

def nearer (a b : Hit α) : Bool := atMost a.distance b.distance || !atMost b.distance b.distance

variable {m : Model} {inventory : List Text} {query : Text}

theorem hit?_eq (threshold : α) (e : LexiconEntry) :
    hit? m inventory query threshold e =
      if e.phonetic ≠ [] ∧ atMost (wordDistance m inventory query e.phonetic) threshold = true
      then some ⟨e, wordDistance m inventory query e.phonetic⟩ else none := rfl

theorem hit?_close {threshold : α} {entries : List LexiconEntry} {h : Hit α}
    (member : h ∈ entries.filterMap (hit? m inventory query threshold)) :
    atMost h.distance threshold = true := by
  obtain ⟨e, _, found⟩ := List.mem_filterMap.mp member
  rw [hit?_eq] at found
  split at found
  · rename_i near
    cases found
    exact near.2
  · cases found

theorem measured_filter (entries : List LexiconEntry) (threshold : α) :
    ((transcribed entries).map fun e =>
        (⟨e, wordDistance m inventory query e.phonetic⟩ : Hit α)).filter
          (fun h => atMost h.distance threshold) =
      entries.filterMap (hit? m inventory query threshold) := by
  induction entries with
  | nil => rfl
  | cons e rest ih =>
    rw [List.filterMap_cons, ← ih, transcribed, List.filter_cons, ← transcribed, hit?_eq]
    cases empty : e.phonetic.isEmpty with
    | true =>
      have silent : e.phonetic = [] := List.isEmpty_iff.mp empty
      rw [Bool.not_true, if_neg Bool.false_ne_true, if_neg fun near => near.1 silent]
    | false =>
      have transcription : e.phonetic ≠ [] := List.isEmpty_eq_false_iff.mp empty
      rw [Bool.not_false, if_pos rfl, List.map_cons, List.filter_cons]
      by_cases close : atMost (wordDistance m inventory query e.phonetic) threshold = true
      · rw [if_pos close, if_pos ⟨transcription, close⟩]
      · rw [if_neg close, if_neg fun near => close near.2]

variable [Ordered α]

theorem nearer_total (a b : Hit α) : nearer a b = true ∨ nearer b a = true := by
  simp only [nearer, Bool.or_eq_true, Bool.not_eq_true']
  cases first : atMost a.distance a.distance with
  | false => exact Or.inr (Or.inr rfl)
  | true =>
    cases second : atMost b.distance b.distance with
    | false => exact Or.inl (Or.inr rfl)
    | true => exact (Ordered.total first second).imp Or.inl Or.inl

theorem nearer_trans (a b c : Hit α) (first : nearer a b = true) (second : nearer b c = true) :
    nearer a c = true := by
  simp only [nearer, Bool.or_eq_true, Bool.not_eq_true'] at first second ⊢
  rcases second with second | undefined
  · rcases first with first | undefined
    · exact Or.inl (Ordered.trans first second)
    · rw [(Ordered.ends second).1] at undefined
      cases undefined
  · exact Or.inr undefined

theorem not_less_eq_nearer {a b : Hit α} (first : atMost a.distance a.distance = true)
    (second : atMost b.distance b.distance = true) :
    (!less b.distance a.distance) = nearer a b := by
  have compared := Ordered.total first second
  have strict := Ordered.less_iff b.distance a.distance
  unfold nearer
  rw [second, Bool.not_true, Bool.or_false]
  cases below : atMost a.distance b.distance with
  | true => simp [below] at strict; simp [strict]
  | false => simp [below] at compared strict; simp [strict, compared]

theorem hits_eq (entries : List LexiconEntry) (threshold : α) :
    hits m inventory query entries threshold =
      sortBy nearer (entries.filterMap (hit? m inventory query threshold)) := by
  rw [hits, measured_filter]
  refine sortBy_congr fun a first b second => ?_
  exact not_less_eq_nearer (Ordered.ends (hit?_close first)).1 (Ordered.ends (hit?_close second)).1

theorem search_eq (entries : List LexiconEntry) (threshold : α) (spoken : query.strip ≠ []) :
    search m inventory query entries threshold =
      sortBy nearer (entries.filterMap (hit? m inventory query.strip threshold)) := by
  rw [search, if_neg (by simpa using spoken), hits_eq]

theorem ranked_sortBy {near : List (Hit α)} (threshold : α)
    (close : ∀ h ∈ near, atMost h.distance threshold = true) :
    Ranked near (sortBy nearer near) where
  complete := sortBy_perm nearer near
  ascending := by
    refine (sortBy_ascending nearer_total nearer_trans near).imp_of_mem fun _ member below => ?_
    have number := (Ordered.ends (close _ ((mem_sortBy nearer).mp member))).1
    simpa [nearer, number] using below
  ties := by
    intro distance
    refine sortBy_stable (fun a b first second => ?_) near
    simp only [equal, Bool.and_eq_true] at first second
    simp [nearer, Ordered.trans first.2 second.1]

theorem filterMap_hit?_filter {s t : α} (le : atMost s t = true) (entries : List LexiconEntry) :
    (entries.filterMap (hit? m inventory query t)).filter (fun h => atMost h.distance s) =
      entries.filterMap (hit? m inventory query s) := by
  rw [List.filter_filterMap]
  refine List.filterMap_congr fun e _ => ?_
  by_cases close : atMost (wordDistance m inventory query e.phonetic) s = true
  · have closer := Ordered.trans close le
    by_cases silent : e.phonetic = []
    · simp [hit?_eq, silent]
    · simp [hit?_eq, silent, close, closer]
  · rw [hit?_eq s, if_neg fun near => close near.2, hit?_eq t]
    split
    · simp [close]
    · rfl

/-- A search finds every entry with a transcription at most the threshold away, once and with its
distance, nearest first, entries of one distance as in the lexicon; a blank query finds none. The
hits of a threshold come first among those of a greater one, and an entry more or less adds or
takes its own hit only. -/
theorem search_ranks (m : Model) (inventory : List Text) (query : Text) :
    (query.strip = [] → ∀ entries (threshold : α),
      search m inventory query entries threshold = []) ∧
    (query.strip ≠ [] → ∀ entries (threshold : α),
      Ranked (entries.filterMap (hit? m inventory query.strip threshold))
        (search m inventory query entries threshold)) ∧
    (∀ entries (s t : α), atMost s t = true →
      search m inventory query entries s <+: search m inventory query entries t) ∧
    (query.strip ≠ [] → ∀ entries e others (threshold : α),
      ∃ before after, search m inventory query (entries ++ others) threshold = before ++ after ∧
        search m inventory query (entries ++ e :: others) threshold =
          before ++ (hit? m inventory query.strip threshold e).toList ++ after) := by
  have blank (empty : query.strip = []) (entries : List LexiconEntry) (threshold : α) :
      search m inventory query entries threshold = [] := by
    rw [search, if_pos (List.isEmpty_iff.mpr empty)]
  refine ⟨blank, ?_, ?_, ?_⟩
  · intro spoken entries threshold
    rw [search_eq entries threshold spoken]
    exact ranked_sortBy threshold fun h member => hit?_close member
  · intro entries s t le
    by_cases empty : query.strip = []
    · rw [blank empty entries s]
      exact List.nil_prefix
    · rw [search_eq entries s empty, search_eq entries t empty, ← filterMap_hit?_filter le,
        sortBy_filter nearer_total nearer_trans]
      -- A hit near enough for `s` has only such hits before it.
      have ranked : Ranked (entries.filterMap (hit? m inventory query.strip t)) _ :=
        ranked_sortBy t fun h member => hit?_close member
      exact filter_prefix (ranked.ascending.imp fun below close => Ordered.trans below close)
  · intro spoken entries e others threshold
    rw [search_eq _ _ spoken, search_eq _ _ spoken, List.filterMap_append, List.filterMap_append,
      List.filterMap_cons]
    cases hit? m inventory query.strip threshold e with
    | none => exact ⟨_, [], (List.append_nil _).symm, by simp⟩
    | some h =>
      obtain ⟨before, after, without, with_h⟩ := sortBy_insert nearer_total nearer_trans
        (entries.filterMap (hit? m inventory query.strip threshold)) h
        (others.filterMap (hit? m inventory query.strip threshold))
      exact ⟨before, after, without, by simpa using with_h⟩

def syllables : Model :=
  .ofList [("p", ["consonant", "stop", "bilabial"]),
    ("b", ["consonant", "stop", "bilabial", "voiced"]), ("a", ["vowel"])]

def lexicon : List LexiconEntry :=
  [⟨['1'], [], "ba", [], []⟩, ⟨['2'], [], [], [], []⟩, ⟨['3'], [], "pa", [], []⟩,
    ⟨['4'], [], "ba", [], []⟩]

theorem search_ranks_syllables :
    atMost (0.1 : Float) 0.6 = true ∧
      search syllables [] " pa" lexicon (0.1 : Float) <+:
        search syllables [] " pa" lexicon (0.6 : Float) ∧
      (search syllables [] " pa" lexicon (0.6 : Float)).map (·.entry.id) = [['3'], ['1'], ['4']] ∧
      Ranked (lexicon.filterMap (hit? syllables [] "pa" (0.6 : Float)))
        (search syllables [] " pa" lexicon (0.6 : Float)) := by
  obtain ⟨_, ranked, grows, _⟩ := search_ranks (α := Float) syllables [] " pa"
  exact ⟨by decide, grows lexicon 0.1 0.6 (by decide), by decide +kernel,
    ranked (by decide) lexicon 0.6⟩

end SoundLaw
