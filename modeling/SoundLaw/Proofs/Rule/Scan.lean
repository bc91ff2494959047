import SoundLaw.Proofs.Rule.Pair
import SoundLaw.Proofs.Rule.PlainContext
import SoundLaw.Proofs.Rule.Pattern

/-!
Rules with plain contexts as scans. Such a rule rewrites the word pair by pair: each pair is one
pass from left to right that replaces the target where it stands between its contexts, which see
the word as it was before the pass.
-/
namespace SoundLaw
open Regex

/-! ### The scan -/

def endsAs (macros : Macros) (context before : Text) : Bool :=
  if context = boundary then before.isEmpty
  else (macros.spelled context).any fun t => t.isSuffixOf before

def beginsAs (macros : Macros) (context after : Text) : Bool :=
  if context = boundary then after.isEmpty
  else (macros.spelled context).any fun t => t.isPrefixOf after

/-- Passes over `skip` characters, then puts `new` for each target that stands between a text
before and a text after that fit; other characters stay. -/
def scan (fits : Text → Text → Bool) (target new : Text) : Nat → Text → Text → Text
  | _, _, [] => []
  | skip + 1, before, c :: rest => scan fits target new skip (before ++ [c]) rest
  | 0, before, c :: rest =>
    if target.isPrefixOf (c :: rest) && fits before ((c :: rest).drop target.length) then
      new ++ scan fits target new (target.length - 1) (before ++ [c]) rest
    else c :: scan fits target new 0 (before ++ [c]) rest

namespace CharacterRule

/-- One pass of a pair, unless an exception stands in the word. -/
def scanPair (r : CharacterRule) (macros : Macros) (word : Text) (pair : Text × Text) : Text :=
  if ∃ e ∈ r.exceptions, e ≠ [] ∧ e <:+: word then word
  else scan (fun before after => endsAs macros r.before before && beginsAs macros r.after after)
    pair.1 pair.2 0 [] word

def scanAll (r : CharacterRule) (macros : Macros) (word : Text) : Text :=
  r.pairing.foldl (r.scanPair macros) word

end CharacterRule

/-! ### The pattern of plain contexts -/

namespace Macros

def contextPattern (macros : Macros) (context : Text) : Pattern :=
  .ofList ((macros.usable.pieces context).flatMap macros.usable.piecePatterns)

theorem reads_context {macros : Macros} {context : Text} (readable : macros.Readable context)
    (inner : context ≠ boundary) :
    Read.Reads [] (expandContext macros context)
      ((macros.usable.pieces context).flatMap macros.usable.piecePatterns) := by
  rw [expandContext_pieces macros inner]
  exact reads_pieces macros (readable.resolve_left inner)

theorem expandContext_eq_boundary {macros : Macros} {context : Text} :
    expandContext macros context = boundary ↔ context = boundary := by
  constructor
  · intro whole
    by_contra inner
    rw [expandContext_pieces macros inner] at whole
    have letters : ∀ piece ∈ macros.usable.pieces context,
        macros.usable.pieceText piece = piece := by
      intro piece member
      refine if_neg fun known => ?_
      -- the alternatives of a macro bring a parenthesis
      have brackets : '(' ∈ (macros.usable.pieces context).flatMap macros.usable.pieceText :=
        List.mem_flatMap.mpr ⟨piece, member, by simp [pieceText, known, alternation]⟩
      rw [whole] at brackets
      exact absurd brackets (by decide)
    rw [List.flatMap_congr letters, List.flatMap_id', pieces_flatten] at whole
    exact inner whole
  · intro same
    simp [expandContext, same]

theorem expandContext_eq_nil {macros : Macros} {context : Text} :
    expandContext macros context = [] ↔ context = [] := by
  constructor
  · intro none
    by_cases inner : context = boundary
    · rw [expandContext_eq_boundary.mpr inner] at none
      exact absurd none (by decide)
    · rw [expandContext_pieces macros inner, List.flatMap_eq_nil_iff] at none
      rw [← pieces_flatten macros.usable context, List.flatten_eq_nil_iff]
      intro piece member
      have empty := none piece member
      unfold pieceText at empty
      split at empty
      · simp [alternation] at empty
      · exact empty
  · intro same
    subst same
    rfl

def firstPatterns (macros : Macros) (context : Text) : List Pattern :=
  if context = boundary then [.anchor .start]
  else if context = [] then [] else [.look true false (macros.contextPattern context)]

def lastPatterns (macros : Macros) (context : Text) : List Pattern :=
  if context = boundary then [.anchor .finish]
  else if context = [] then [] else [.look false false (macros.contextPattern context)]

theorem reads_behindText {macros : Macros} {context : Text}
    (readable : macros.Readable context) :
    Read.Reads [] (behindText (expandContext macros context)) (macros.firstPatterns context) := by
  unfold behindText firstPatterns
  simp only [expandContext_eq_boundary, List.isEmpty_iff, expandContext_eq_nil]
  split
  · exact Read.reads_caret []
  · rename_i inner
    split
    · exact Read.reads_nil []
    · exact Read.reads_behind (reads_context readable inner)

theorem reads_aheadText {macros : Macros} {context : Text}
    (readable : macros.Readable context) :
    Read.Reads [] (aheadText (expandContext macros context)) (macros.lastPatterns context) := by
  unfold aheadText lastPatterns
  simp only [expandContext_eq_boundary, List.isEmpty_iff, expandContext_eq_nil]
  split
  · exact Read.reads_finish []
  · rename_i inner
    split
    · exact Read.reads_nil []
    · exact Read.reads_ahead (reads_context readable inner)

theorem still_firstPatterns (macros : Macros) (context : Text) :
    Still (macros.firstPatterns context) := by
  unfold firstPatterns
  split
  · exact still_anchor _
  · split
    · exact still_nil
    · exact still_look _ _ _

theorem still_lastPatterns (macros : Macros) (context : Text) :
    Still (macros.lastPatterns context) := by
  unfold lastPatterns
  split
  · exact still_anchor _
  · split
    · exact still_nil
    · exact still_look _ _ _

theorem run_contextPattern (macros : Macros) (context : Text) (behind : Bool) (s : State) :
    (run (macros.contextPattern context) behind s some).isSome =
      (macros.spelled context).any fun t => (s.across behind t).isSome := by
  rw [Bool.eq_iff_iff, contextPattern,
    run_pieces _ (fun name => usable_members_ne_nil macros) behind s some, List.any_eq_true]
  simp only [Option.bind_fun_some, spelled]

theorem passes_look (behind : Bool) (p : Pattern) (s : State) :
    Passes [.look behind false p] s = (run p behind s some).isSome := by
  simp only [Passes, Pattern.ofList, run_look]
  cases run p behind s some <;> rfl

theorem spelled_nil (macros : Macros) : macros.spelled [] = [[]] := rfl

theorem passes_firstPatterns (macros : Macros) (context : Text) (s : State) :
    Passes (macros.firstPatterns context) s = endsAs macros context s.before.reverse := by
  unfold firstPatterns endsAs
  split
  · cases stands : s.before <;> simp [Passes, Pattern.ofList, Anchor.holds, stands]
  · split
    · rename_i none
      simp [none, spelled_nil, Passes, Pattern.ofList]
    · rw [passes_look, run_contextPattern]
      congr 1
      funext t
      simp only [State.across, ↓reduceIte, List.isSuffixOf, List.reverse_reverse]
      cases t.reverse.isPrefixOf s.before <;> rfl

theorem passes_lastPatterns (macros : Macros) (context : Text) (s : State) :
    Passes (macros.lastPatterns context) s = beginsAs macros context s.after := by
  unfold lastPatterns beginsAs
  split
  · cases stands : s.after <;> simp [Passes, Pattern.ofList, Anchor.holds, stands]
  · split
    · rename_i none
      simp [none, spelled_nil, Passes, Pattern.ofList]
    · rw [passes_look, run_contextPattern]
      congr 1
      funext t
      simp only [State.across, Bool.false_eq_true, ↓reduceIte]
      cases t.isPrefixOf s.after <;> rfl

end Macros

/-! ### The pass of a pattern as a scan -/

/-- A pattern that matches just its target where the sides fit is replaced as the scan does it. -/
theorem replaceFrom_scan {p : Pattern} {fits : Text → Text → Bool} {target new : Text}
    (nonempty : target ≠ [])
    (spec : ∀ before after forbidEmpty, matchLength? p before.reverse after forbidEmpty =
      if target.isPrefixOf after && fits before (after.drop target.length)
        then some target.length else none)
    (skip : Nat) (before text : Text) :
    replaceFrom p (fun _ => new) skip before.reverse text =
      scan fits target new skip before text := by
  induction text generalizing skip before with
  | nil =>
    have nowhere : target.isPrefixOf [] = false := by
      cases target with
      | nil => exact absurd rfl nonempty
      | cons c t => rfl
    cases skip <;> simp [replaceFrom, scan, spec, nowhere]
  | cons c rest ih =>
    have moved : c :: before.reverse = (before ++ [c]).reverse := by simp
    cases skip with
    | succ n =>
      rw [replaceFrom, scan, moved, ih]
    | zero =>
      obtain ⟨k, size⟩ : ∃ k, target.length = k + 1 :=
        ⟨target.length - 1, by have := List.length_pos_iff.mpr nonempty; omega⟩
      rw [replaceFrom, scan, spec]
      by_cases here : (target.isPrefixOf (c :: rest) &&
          fits before ((c :: rest).drop target.length)) = true
      · rw [if_pos here, if_pos here, size, Nat.add_sub_cancel, moved]
        simp only [ih]
      · rw [if_neg here, if_neg here, moved]
        simp only [ih]

namespace CharacterRule
variable {r : CharacterRule} {macros : Macros}

def pairPatterns (r : CharacterRule) (macros : Macros) (target : Text) : List Pattern :=
  macros.firstPatterns r.before ++ (target.map (letter []) ++ macros.lastPatterns r.after)

theorem compile_pair (before : macros.Readable r.before) (after : macros.Readable r.after)
    (target : Text) :
    Regex.compile
        (rulePattern target (expandContext macros r.before) (expandContext macros r.after)) =
      .ok (.ofList (r.pairPatterns macros target)) := by
  rw [rulePattern_eq]
  exact compile_reads (Read.reads_append (Macros.reads_behindText before)
    (Read.reads_append (Read.reads_literal [] target) (Macros.reads_aheadText after)))

theorem replaceAll_pair {target : Text} (nonempty : target ≠ []) (new word : Text) :
    replaceAll (.ofList (r.pairPatterns macros target)) new word =
      scan (fun before after => endsAs macros r.before before && beginsAs macros r.after after)
        target new 0 [] word := by
  refine replaceFrom_scan nonempty (fun before after forbidEmpty => ?_) 0 [] word
  exact matchLength_between rfl (Macros.still_firstPatterns macros r.before)
    (Macros.still_lastPatterns macros r.after) (Macros.passes_firstPatterns macros r.before)
    (Macros.passes_lastPatterns macros r.after) nonempty before after forbidEmpty

/-! ### The pairs of a rule -/

theorem applyPair_scans (before : macros.Readable r.before) (after : macros.Readable r.after)
    {pair : Text × Text} (nonempty : pair.1 ≠ []) (o : Outcome) :
    ∃ o', r.applyPair (expandContext macros r.before) (expandContext macros r.after) o pair =
        ⟨[], .ok o'⟩ ∧
      o'.result = r.scanPair macros o.result pair ∧ o'.warnings = o.warnings := by
  unfold scanPair
  by_cases excepted : ∃ e ∈ r.exceptions, e ≠ [] ∧ e <:+: o.result
  · rw [applyPair_excepted ((hasException_iff _ _).mpr excepted), if_pos excepted]
    exact ⟨o, rfl, rfl, rfl⟩
  · rw [applyPair_compiled (fun h => excepted ((hasException_iff _ _).mp h))
      (compile_pair before after pair.1), if_neg excepted, replaceAll_pair nonempty]
    refine ⟨_, rfl, ?_, ?_⟩
    · split
      · rename_i same
        exact same.symm
      · rfl
    · split <;> rfl

theorem applyPairs_readable (before : macros.Readable r.before)
    (after : macros.Readable r.after)
    (pairs : List (Text × Text)) (nonempty : ∀ pair ∈ pairs, pair.1 ≠ []) (o : Outcome) :
    ∃ o', r.applyPairs (expandContext macros r.before) (expandContext macros r.after) pairs o =
        ⟨[], .ok o'⟩ ∧
      o'.result = pairs.foldl (r.scanPair macros) o.result ∧ o'.warnings = o.warnings := by
  induction pairs generalizing o with
  | nil => exact ⟨o, rfl, rfl, rfl⟩
  | cons pair rest ih =>
    obtain ⟨first, applied, result, warnings⟩ :=
      applyPair_scans before after (nonempty pair List.mem_cons_self) o
    obtain ⟨last, more, result', warnings'⟩ :=
      ih (fun p member => nonempty p (List.mem_cons_of_mem pair member)) first
    refine ⟨last, ?_, ?_, warnings'.trans warnings⟩
    · rw [applyPairs, Journal.bind_ok (a := first) (by rw [applied]), applied, more]
      rfl
    · rw [result', result, List.foldl_cons]

theorem applyPairs_scan (before : macros.Plain r.before) (after : macros.Plain r.after)
    (pairs : List (Text × Text)) (nonempty : ∀ pair ∈ pairs, pair.1 ≠ []) (o : Outcome) :
    ∃ o', r.applyPairs (expandContext macros r.before) (expandContext macros r.after) pairs o =
        ⟨[], .ok o'⟩ ∧
      o'.result = pairs.foldl (r.scanPair macros) o.result ∧ o'.warnings = o.warnings :=
  applyPairs_readable before.readable after.readable pairs nonempty o

/-- A rule with plain contexts tells of nothing, warns of nothing, and does what its scans do. -/
theorem plain_rule_scans (r : CharacterRule) (macros : Macros) (word : Text)
    (before : macros.Plain r.before) (after : macros.Plain r.after) :
    ∃ o, r.apply macros word = ⟨[], .ok o⟩ ∧ o.result = r.scanAll macros word ∧
      o.warnings = [] := by
  obtain ⟨o, applied, result, warnings⟩ :=
    applyPairs_scan before after r.pairs (fun _ member => target_ne_nil member)
      ⟨word, false, [], []⟩
  refine ⟨o, applied, ?_, warnings⟩
  rw [result, scanAll, pairs_eq_pairing]

def voicing : CharacterRule where
  id := ['v']
  target := "p t k"
  replacement := "b d"
  before := "V"
  after := "V"
  exceptions := ["xx"]

theorem plain_rule_scans_voicing :
    ∃ o, voicing.apply [("V", ["a", "e."])] "apate.kakx" = ⟨[], .ok o⟩ ∧
      o.result = ("abade.dakx" : Text) ∧ o.warnings = [] := by
  have scans := plain_rule_scans voicing [("V", ["a", "e."])] "apate.kakx" (by decide) (by decide)
  rwa [show voicing.scanAll [("V", ["a", "e."])] "apate.kakx" = "abade.dakx" by decide] at scans

end CharacterRule
end SoundLaw
