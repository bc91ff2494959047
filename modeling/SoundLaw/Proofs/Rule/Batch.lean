import SoundLaw.Proofs.Rule.Composition

/-!
Batches. The items of a batch tell of each word what its run alone tells, and the events are those
of the runs, with one event for the batch at the end. A run that ends in a fault ends the batch, and
the words before it have no item either.
-/
namespace SoundLaw
variable {s : Setting} {sets : List RuleSet} {word : Text} {words : List Text}

def Returns (s : Setting) (sets : List RuleSet) (word : Text) : Prop :=
  ∃ c, (runWord s sets word).outcome = .ok c

/-- An item that tells of a word what its run alone tells. -/
def TellsOf (s : Setting) (sets : List RuleSet) (word : Text) (item : BatchItem) : Prop :=
  item.word = word ∧ ∃ c, (runWord s sets word).outcome = .ok c ∧ item.result = c.result ∧
    item.steps = c.steps ∧ (item.changed = true ↔ c.steps ≠ [])

def batchName : Text := "batch_apply_sound_changes"

theorem runWords_inOrder (words : List Text) :
    runWords s (inOrder sets) words = runWords s sets words := by
  induction words with
  | nil => rfl
  | cons word rest ih =>
    rw [runWords, runWords, ih, runWord_rearranged (rearranged_inOrder sets)]

theorem runWords_append (words more : List Text) :
    runWords s sets (words ++ more) = do
      let a ← runWords s sets words
      let b ← runWords s sets more
      return a ++ b := by
  induction words with
  | nil => simp [runWords]
  | cons word rest ih => simp [runWords, ih]

theorem runWords_return (all_return : ∀ w ∈ words, Returns s sets w) :
    ∃ items, runWords s sets words = ⟨words.flatMap fun w => (runWord s sets w).events, .ok items⟩ ∧
      List.Forall₂ (TellsOf s sets) words items := by
  induction words with
  | nil => exact ⟨[], rfl, .nil⟩
  | cons word rest ih =>
    obtain ⟨c, ended⟩ := all_return word List.mem_cons_self
    obtain ⟨items, run, tells⟩ := ih fun w member => all_return w (List.mem_cons_of_mem word member)
    refine ⟨⟨word, c.result, c.steps⟩ :: items, ?_, .cons ⟨rfl, c, ended, rfl, rfl, ?_⟩ tells⟩
    · rw [runWords, Journal.bind_ok ended, run, Journal.bind_ok rfl]
      simp
    · simp [BatchItem.changed]

theorem runWords_fault {before : List Text} {fault : RunFault} (after : List Text)
    (all_return : ∀ w ∈ before, Returns s sets w)
    (ended : (runWord s sets word).outcome = .error fault) :
    runWords s sets (before ++ word :: after) =
      ⟨(before ++ [word]).flatMap fun w => (runWord s sets w).events, .error fault⟩ := by
  obtain ⟨items, run, _⟩ := runWords_return all_return
  have stops : runWords s sets (word :: after) = ⟨(runWord s sets word).events, .error fault⟩ := by
    rw [runWords, Journal.bind_error ended]
  rw [runWords_append, run, Journal.bind_ok rfl, stops, Journal.bind_error rfl]
  simp

/-- Where every run returns, a batch has the items that tell of each word what its run alone tells,
and the events of the runs with that of its end. Otherwise the first run with a fault ends it. The
items of words followed by others are those of the words followed by those of the others. -/
theorem batch_tells_runs (s : Setting) (sets : List RuleSet) :
    (∀ words, (∀ w ∈ words, Returns s sets w) →
      ∃ items, (runBatch s sets words).outcome = .ok items ∧
        List.Forall₂ (TellsOf s sets) words items ∧
        (runBatch s sets words).events =
          (words.flatMap fun w => (runWord s sets w).events) ++
            [.completed .soundChange batchName]) ∧
    (∀ before word after fault, (∀ w ∈ before, Returns s sets w) →
      (runWord s sets word).outcome = .error fault →
      (runBatch s sets (before ++ word :: after)).outcome = .error fault ∧
        (runBatch s sets (before ++ word :: after)).events =
          ((before ++ [word]).flatMap fun w => (runWord s sets w).events) ++
            [.failed .soundChange batchName fault.notice.text fault.notice.kind]) ∧
    ∀ words more, (runBatch s sets (words ++ more)).outcome = do
      let a ← (runBatch s sets words).outcome
      let b ← (runBatch s sets more).outcome
      return a ++ b := by
  have outcome (words : List Text) :
      (runBatch s sets words).outcome = (runWords s sets words).outcome := by
    rw [runBatch, runWords_inOrder, timed]
    cases (runWords s sets words).outcome <;> rfl
  refine ⟨fun words all_return => ?_, fun before word after fault all_return ended => ?_,
    fun words more => ?_⟩
  · obtain ⟨items, run, tells⟩ := runWords_return all_return
    refine ⟨items, by rw [outcome, run], tells, ?_⟩
    rw [runBatch, runWords_inOrder, run]
    rfl
  · have run := runWords_fault after all_return ended
    refine ⟨by rw [outcome, run], ?_⟩
    rw [runBatch, runWords_inOrder, run]
    rfl
  · rw [outcome, outcome, outcome, runWords_append, Journal.outcome_bind]
    simp only [Journal.outcome_bind]
    rfl

/-- Spares words with `x`. In others the context leaves the look that it is put in and asks there
for two kinds of characters, which exclude one another. -/
def conflicting : RuleSet :=
  ⟨['s'], [], 0, [.character ⟨['r'], [], ['a'], ['b'], [], ")(?au)(?:", [['x']]⟩]⟩

theorem batch_tells_runs_stops :
    (∀ w ∈ (["pa", "ta"] : List Text), Returns stops lenition w) ∧
      (∃ items, (runBatch stops lenition ["pa", "ta"]).outcome = .ok items ∧
        List.Forall₂ (TellsOf stops lenition) ["pa", "ta"] items) ∧
      (runWord stops [conflicting] "a").outcome = .error (.conflictingFlags .characters) ∧
      (runBatch stops [conflicting] ["x", "a"]).events =
        [.failed .soundChange batchName
          "ASCII, LOCALE and UNICODE flags are mutually incompatible" "ValueError"] := by
  have all_return : ∀ w ∈ (["pa", "ta"] : List Text), Returns stops lenition w := by
    intro w member
    simp only [List.mem_cons, List.not_mem_nil, or_false] at member
    rcases member with rfl | rfl
    · exact ⟨⟨"b", [⟨['v'], "[+stop] → [+voiced]", "pa", "ba", some "p→b [+voiced]"⟩,
        ⟨['d'], "a → ", "ba", "b", none⟩], []⟩, by decide⟩
    · exact ⟨⟨"t", [⟨['d'], "a → ", "ta", "t", none⟩], []⟩, by decide⟩
  have spared : ∀ w ∈ [['x']], Returns stops [conflicting] w := by
    intro w member
    obtain rfl := List.mem_singleton.mp member
    exact ⟨⟨['x'], [], []⟩, by decide⟩
  have fault : (runWord stops [conflicting] "a").outcome =
      .error (.conflictingFlags .characters) := by
    decide
  obtain ⟨items, ended, tells, _⟩ := (batch_tells_runs stops lenition).1 _ all_return
  have stopped := (batch_tells_runs stops [conflicting]).2.1 _ _ [] _ spared fault
  exact ⟨all_return, ⟨items, ended, tells⟩, fault, stopped.2⟩

/-- The run of `x` alone returns, but not the batch that holds it. -/
theorem batch_loses_word :
    (runWord stops [conflicting] "x").outcome = .ok ⟨"x", [], []⟩ ∧
      ¬ ∃ items, (runBatch stops [conflicting] ["x", "a"]).outcome = .ok items := by
  refine ⟨by decide, ?_⟩
  rintro ⟨items, ended⟩
  have fault : (runBatch stops [conflicting] ["x", "a"]).outcome =
      .error (.conflictingFlags .characters) := by
    decide
  rw [fault] at ended
  cases ended

end SoundLaw
