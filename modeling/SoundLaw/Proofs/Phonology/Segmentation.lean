import SoundLaw.Proofs.Phonology.Token

/-!
Segmentations of words. Tokens segment a word when they join to it and each is what the inventory
says of its place: the longest entry that begins there, or one character just where no entry does.
Every word has one segmentation, which `tokenize` finds, and only the set of non-empty entries has
a say in it. Tokens that follow one another segment the text that they join to.
-/
namespace SoundLaw

/-- An entry with characters begins the text, and no longer one does. -/
structure LongestEntry (inventory : List Text) (entry text : Text) : Prop where
  member : entry ∈ inventory
  nonempty : entry ≠ []
  begins : entry <+: text
  longest : ∀ other ∈ inventory, other <+: text → other.length ≤ entry.length

def Unlisted (inventory : List Text) (text : Text) : Prop :=
  ∀ entry ∈ inventory, entry ≠ [] → ¬ entry <+: text

/-- The first token of a text. -/
def FirstToken (inventory : List Text) (token text : Text) : Prop :=
  LongestEntry inventory token text ∨
    Unlisted inventory text ∧ ∃ c rest, text = c :: rest ∧ token = [c]

structure Segments (inventory : List Text) (word : Text) (tokens : List Text) : Prop where
  whole : spell tokens = word
  nonempty : ∀ token ∈ tokens, token ≠ []
  greedy : ∀ before token after, tokens = before ++ token :: after →
    FirstToken inventory token (word.drop (spell before).length)

variable {inventory others : List Text} {token other text word rest : Text} {tokens : List Text}

/-! ### One token -/

theorem FirstToken.nonempty (first : FirstToken inventory token text) : token ≠ [] := by
  rcases first with entry | ⟨_, c, _, _, rfl⟩
  · exact entry.nonempty
  · exact List.cons_ne_nil c []

theorem LongestEntry.unique (first : LongestEntry inventory token text)
    (second : LongestEntry inventory other text) : token = other := by
  have shorter := second.longest token first.member first.begins
  have longer := first.longest other second.member second.begins
  exact (List.prefix_of_prefix_length_le first.begins second.begins shorter).eq_of_length_le longer

theorem FirstToken.unique (first : FirstToken inventory token text)
    (second : FirstToken inventory other text) : token = other := by
  rcases first with entry | ⟨unlisted, c, rest, rfl, rfl⟩
  · rcases second with entry' | ⟨unlisted, _⟩
    · exact entry.unique entry'
    · exact absurd entry.begins (unlisted token entry.member entry.nonempty)
  · rcases second with entry | ⟨_, d, rest', split, rfl⟩
    · exact absurd entry.begins (unlisted other entry.member entry.nonempty)
    · rw [(List.cons.inj split).1]

theorem FirstToken.of_same_entries
    (same : ∀ entry, entry ≠ [] → (entry ∈ inventory ↔ entry ∈ others))
    (first : FirstToken inventory token text) : FirstToken others token text := by
  rcases first with entry | ⟨unlisted, single⟩
  · refine Or.inl ⟨(same token entry.nonempty).mp entry.member, entry.nonempty, entry.begins, ?_⟩
    intro longer member begins
    by_cases empty : longer = []
    · simp [empty]
    · exact entry.longest longer ((same longer empty).mpr member) begins
  · refine Or.inr ⟨fun entry member nonempty => ?_, single⟩
    exact unlisted entry ((same entry nonempty).mpr member) nonempty

/-! ### Segmentations token by token -/

theorem segments_nil_iff : Segments inventory word [] ↔ word = [] := by
  constructor
  · intro segments
    exact segments.whole.symm
  · rintro rfl
    exact ⟨rfl, by simp, by simp⟩

theorem segments_cons_iff : Segments inventory word (token :: tokens) ↔
    ∃ rest, word = token ++ rest ∧ FirstToken inventory token word ∧
      Segments inventory rest tokens := by
  constructor
  · intro segments
    refine ⟨spell tokens, segments.whole.symm, segments.greedy [] token tokens rfl, rfl,
      fun t member => segments.nonempty t (List.mem_cons_of_mem token member), ?_⟩
    rintro before t after rfl
    have later := segments.greedy (token :: before) t after rfl
    rwa [← segments.whole, spell, spell, List.flatten_cons, List.flatten_cons, List.length_append,
      ← List.drop_drop, List.drop_left] at later
  · rintro ⟨rest, rfl, first, segments⟩
    refine ⟨by rw [spell, List.flatten_cons, ← spell, segments.whole],
      List.forall_mem_cons.mpr ⟨first.nonempty, segments.nonempty⟩, ?_⟩
    intro before t after split
    cases before with
    | nil =>
      obtain ⟨rfl, rfl⟩ := List.cons.inj split
      exact first
    | cons _ before =>
      obtain ⟨rfl, later⟩ := List.cons.inj split
      rw [spell, List.flatten_cons, List.length_append, ← List.drop_drop, List.drop_left]
      exact segments.greedy before t after later

theorem Segments.unique {tokens' : List Text} (first : Segments inventory word tokens)
    (second : Segments inventory word tokens') : tokens = tokens' := by
  induction tokens generalizing word tokens' with
  | nil =>
    cases tokens' with
    | nil => rfl
    | cons other rest =>
      obtain ⟨_, split, begun, _⟩ := segments_cons_iff.mp second
      rw [segments_nil_iff.mp first, eq_comm, List.append_eq_nil_iff] at split
      exact absurd split.1 begun.nonempty
  | cons token tokens ih =>
    obtain ⟨rest, split, begun, later⟩ := segments_cons_iff.mp first
    cases tokens' with
    | nil =>
      rw [segments_nil_iff.mp second, eq_comm, List.append_eq_nil_iff] at split
      exact absurd split.1 begun.nonempty
    | cons other tokens' =>
      obtain ⟨rest', split', begun', later'⟩ := segments_cons_iff.mp second
      obtain rfl := begun.unique begun'
      rw [split, List.append_cancel_left_eq] at split'
      rw [ih later (split' ▸ later')]

theorem Segments.of_same_entries
    (same : ∀ entry, entry ≠ [] → (entry ∈ inventory ↔ entry ∈ others))
    (segments : Segments inventory word tokens) : Segments others word tokens :=
  ⟨segments.whole, segments.nonempty, fun before token after split =>
    (segments.greedy before token after split).of_same_entries same⟩

/-! ### The segmentation that is found -/

theorem cutFrom_drop (skip : Nat) (text : Text) :
    cutFrom inventory skip text = tokenize inventory (text.drop skip) := by
  induction text generalizing skip with
  | nil => simp [tokenize, cutFrom]
  | cons c rest ih =>
    cases skip with
    | zero => rfl
    | succ n => rw [cutFrom, ih, List.drop_succ_cons]

theorem longestAt_longestEntry (stands : longestAt text inventory ≠ []) :
    LongestEntry inventory (longestAt text inventory) text :=
  ⟨(longestAt_mem text inventory).resolve_left stands, stands, longestAt_prefix text inventory,
    fun _ member begins => longestAt_longest text member begins⟩

theorem tokenize_cons (inventory : List Text) (c : Char) (rest : Text) :
    ∃ token left, c :: rest = token ++ left ∧ FirstToken inventory token (c :: rest) ∧
      tokenize inventory (c :: rest) = token :: tokenize inventory left := by
  cases found : longestAt (c :: rest) inventory with
  | nil =>
    refine ⟨[c], rest, rfl, Or.inr ⟨?_, c, rest, rfl, rfl⟩, cutFrom_character found⟩
    intro entry member nonempty fits
    have bound := longestAt_longest (c :: rest) member fits
    rw [found, List.length_nil, Nat.le_zero, List.length_eq_zero_iff] at bound
    exact nonempty bound
  | cons d more =>
    have entry := longestAt_longestEntry (found ▸ List.cons_ne_nil d more)
    rw [found] at entry
    obtain ⟨left, split⟩ := entry.begins
    refine ⟨d :: more, left, split.symm, Or.inl entry, ?_⟩
    have after : rest.drop more.length = left := by
      rw [List.cons_append, List.cons.injEq] at split
      rw [← split.2, List.drop_left]
    rw [tokenize, cutFrom_entry found, cutFrom_drop, after]

theorem segments_tokenize (inventory : List Text) (word : Text) :
    Segments inventory word (tokenize inventory word) := by
  -- Every token takes characters, so what is left of the word gets shorter.
  induction size : word.length using Nat.strongRecOn generalizing word with
  | ind n ih =>
    cases word with
    | nil => exact segments_nil_iff.mpr rfl
    | cons c rest =>
      obtain ⟨token, left, split, first, cut⟩ := tokenize_cons inventory c rest
      have taken := List.length_pos_iff.mpr first.nonempty
      have lengths := congrArg List.length split
      rw [List.length_append, size] at lengths
      rw [cut]
      exact segments_cons_iff.mpr ⟨left, split, first, ih left.length (by omega) left rfl⟩

/-- The tokens of a word are its one segmentation: they join to the word, none is empty, and each is
the longest entry with characters that begins at its place, or one character just where none does.
Inventories with the same non-empty entries cut every word alike. -/
theorem tokenize_only_segmentation (inventory : List Text) (word : Text) :
    (∀ tokens, Segments inventory word tokens ↔ tokens = tokenize inventory word) ∧
      ∀ others : List Text, (∀ entry, entry ≠ [] → (entry ∈ inventory ↔ entry ∈ others)) →
        tokenize inventory word = tokenize others word := by
  have found := segments_tokenize inventory word
  refine ⟨fun tokens => ⟨fun segments => segments.unique found, fun same => same ▸ found⟩, ?_⟩
  intro others same
  exact (found.of_same_entries same).unique (segments_tokenize others word)

/-- Entries that overlap and begin one another, in two rows. -/
theorem tokenize_only_segmentation_affricates :
    Segments ["t", "ts", "sa"] "tsas" ["ts".toList, "a".toList, "s".toList] ∧
      (∀ entry : Text, entry ≠ [] →
        (entry ∈ (["t", "ts", "sa"] : List Text) ↔
          entry ∈ (["sa", [], "ts", "t", "ts"] : List Text))) ∧
      tokenize ["t", "ts", "sa"] "tsas" = tokenize ["sa", [], "ts", "t", "ts"] "tsas" := by
  obtain ⟨segments, alike⟩ := tokenize_only_segmentation ["t", "ts", "sa"] "tsas"
  have same : ∀ entry : Text, entry ≠ [] → (entry ∈ (["t", "ts", "sa"] : List Text) ↔
      entry ∈ (["sa", [], "ts", "t", "ts"] : List Text)) := by
    intro entry nonempty
    simp only [List.mem_cons, List.not_mem_nil, nonempty]
    tauto
  exact ⟨(segments _).mpr (by decide), same, alike _ same⟩

/-! ### Tokens that follow one another -/

/-- A text that ends earlier offers fewer entries, but not where its first token ends. -/
theorem FirstToken.of_prefix (first : FirstToken inventory token text) (begins : token <+: word)
    (part : word <+: text) : FirstToken inventory token word := by
  rcases first with entry | ⟨unlisted, c, rest, rfl, rfl⟩
  · refine Or.inl ⟨entry.member, entry.nonempty, begins, ?_⟩
    intro longer member fits
    exact entry.longest longer member (fits.trans part)
  · obtain ⟨left, rfl⟩ := begins
    refine Or.inr ⟨?_, c, left, rfl, rfl⟩
    intro entry member nonempty fits
    exact unlisted entry member nonempty (fits.trans part)

theorem Segments.of_append {after : List Text}
    (segments : Segments inventory word (tokens ++ after)) :
    Segments inventory (spell tokens) tokens := by
  induction tokens generalizing word with
  | nil => exact segments_nil_iff.mpr rfl
  | cons token tokens ih =>
    obtain ⟨rest, split, first, later⟩ := segments_cons_iff.mp segments
    have part : spell (token :: tokens) <+: word := by
      rw [← segments.whole, spell, spell, List.flatten_append]
      exact List.prefix_append _ _
    have begins : token <+: spell (token :: tokens) := List.prefix_append _ _
    exact segments_cons_iff.mpr ⟨spell tokens, rfl, first.of_prefix begins part, ih later⟩

theorem Segments.of_append_right {before : List Text}
    (segments : Segments inventory word (before ++ tokens)) :
    Segments inventory (spell tokens) tokens := by
  induction before generalizing word with
  | nil => exact segments.whole ▸ segments
  | cons token before ih =>
    obtain ⟨rest, _, _, later⟩ := segments_cons_iff.mp segments
    exact ih later

/-- Tokens that follow one another in a word are the tokens of the text that they join to: neither
where they start nor where they end does the rest of the word have a say in them. -/
theorem tokenize_slice (inventory : List Text) (word : Text) {slice : List Text}
    (part : slice <:+: tokenize inventory word) : tokenize inventory (spell slice) = slice := by
  obtain ⟨before, after, split⟩ := part
  have whole := segments_tokenize inventory word
  rw [← split] at whole
  exact (segments_tokenize inventory (spell slice)).unique whole.of_append.of_append_right

/-- An entry stands across each of the places where the slice is cut off, and across its middle. -/
theorem tokenize_slice_affricates :
    ["sa".toList, "ts".toList] <:+: tokenize ["at", "ts", "sa"] "atsatsat" ∧
      tokenize ["at", "ts", "sa"] "sats" = ["sa".toList, "ts".toList] := by
  have part : ["sa".toList, "ts".toList] <:+: tokenize ["at", "ts", "sa"] "atsatsat" :=
    ⟨["at".toList], ["at".toList], by decide⟩
  exact ⟨part, tokenize_slice ["at", "ts", "sa"] "atsatsat" part⟩

end SoundLaw
