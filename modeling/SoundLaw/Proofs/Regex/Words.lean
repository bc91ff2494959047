import SoundLaw.Regex.Matcher
import SoundLaw.Proofs.Regex.Reading

/-!
Patterns that are made of letters and alternatives match by moving over texts. In both reading
directions a row of letters moves over the text that it spells, and a group moves over the first
of its texts that the rest of the pattern can follow.
-/
namespace SoundLaw.Regex

namespace State

def across (behind : Bool) (t : Text) (s : State) : Option State :=
  if behind then
    if t.reverse.isPrefixOf s.before then
      some { s with before := s.before.drop t.length, after := t ++ s.after }
    else none
  else if t.isPrefixOf s.after then
    some { s with before := t.reverse ++ s.before, after := s.after.drop t.length }
  else none

@[simp] theorem across_nil (behind : Bool) (s : State) : s.across behind [] = some s := by
  cases behind <;> simp [across]

theorem isSome_bind_iff {o : Option State} {next : Continuation} :
    (o.bind next).isSome = true ↔ ∃ s, o = some s ∧ (next s).isSome = true := by
  cases o <;> simp

theorem prefix_append_iff (t u w : Text) :
    (t ++ u).isPrefixOf w = (t.isPrefixOf w && u.isPrefixOf (w.drop t.length)) := by
  induction t generalizing w with
  | nil => simp
  | cons c t ih =>
    cases w with
    | nil => simp
    | cons d w => simp [List.isPrefixOf_cons_cons, ih, Bool.and_assoc]

theorem across_append_ahead (t u : Text) (s : State) :
    s.across false (t ++ u) = (s.across false t).bind fun s' => s'.across false u := by
  simp only [across, Bool.false_eq_true, ↓reduceIte, prefix_append_iff]
  cases t.isPrefixOf s.after <;> simp [List.drop_drop]

theorem across_append_behind (t u : Text) (s : State) :
    s.across true (t ++ u) = (s.across true u).bind fun s' => s'.across true t := by
  simp only [across, ↓reduceIte, List.reverse_append, prefix_append_iff, List.length_reverse]
  cases u.reverse.isPrefixOf s.before <;> simp [List.drop_drop, Nat.add_comm]

theorem step_across (behind : Bool) (c : Char) (s : State) :
    s.step behind (CharTest.code c.toNat false).holds = s.across behind [c] := by
  have same : ∀ d : Char, (c.toNat == d.toNat) = (c == d) := by
    intro d
    rw [Bool.eq_iff_iff, beq_iff_eq, beq_iff_eq, Char.toNat_inj]
  cases behind with
  | false =>
    cases h : s.after with
    | nil => simp [step, across, h]
    | cons d rest => by_cases e : c = d <;> simp [step, across, h, CharTest.holds, same, e]
  | true =>
    cases h : s.before with
    | nil => simp [step, across, h]
    | cons d rest => by_cases e : c = d <;> simp [step, across, h, CharTest.holds, same, e]

end State

/-! ### One step of a match -/

section
variable (behind : Bool) (s : State) (next : Continuation)

@[simp] theorem run_empty : run .empty behind s next = next s := rfl

@[simp] theorem run_one (test : CharTest) :
    run (.one test) behind s next = (s.step behind test.holds).bind next := rfl

@[simp] theorem run_anchor (a : Anchor) :
    run (.anchor a) behind s next = if a.holds s then next s else none := rfl

@[simp] theorem run_seq_ahead (p q : Pattern) :
    run (.seq p q) false s next = run p false s fun s' => run q false s' next := rfl

@[simp] theorem run_seq_behind (p q : Pattern) :
    run (.seq p q) true s next = run q true s fun s' => run p true s' next := rfl

@[simp] theorem run_alt (p q : Pattern) :
    run (.alt p q) behind s next = (run p behind s next).orElse fun _ => run q behind s next := rfl

@[simp] theorem run_look (back negative : Bool) (p : Pattern) :
    run (.look back negative p) behind s next =
      match run p back s some with
      | some s' => if negative then none else next { s with captures := s'.captures }
      | none => if negative then next s else none := rfl

end

/-! ### Rows and groups of letters -/

variable {flags : Flags}

theorem run_ofList_ahead (p : Pattern) (ps : List Pattern) (s : State) (next : Continuation) :
    run (.ofList (p :: ps)) false s next =
      run p false s fun s' => run (.ofList ps) false s' next := by
  cases ps <;> simp [Pattern.ofList]

theorem run_ofList_behind (p : Pattern) (ps : List Pattern) (s : State) (next : Continuation) :
    run (.ofList (p :: ps)) true s next =
      run (.ofList ps) true s fun s' => run p true s' next := by
  cases ps <;> simp [Pattern.ofList]

theorem run_append_ahead (ps qs : List Pattern) (s : State) (next : Continuation) :
    run (.ofList (ps ++ qs)) false s next =
      run (.ofList ps) false s fun s' => run (.ofList qs) false s' next := by
  induction ps generalizing s with
  | nil => simp [Pattern.ofList]
  | cons p ps ih => simp only [List.cons_append, run_ofList_ahead, ih]

theorem run_append_behind (ps qs : List Pattern) (s : State) (next : Continuation) :
    run (.ofList (ps ++ qs)) true s next =
      run (.ofList qs) true s fun s' => run (.ofList ps) true s' next := by
  induction ps generalizing next with
  | nil => simp [Pattern.ofList]
  | cons p ps ih => simp only [List.cons_append, run_ofList_behind, ih]

theorem run_letter (exact : flags.ignoresCase = false) (c : Char) (behind : Bool) (s : State)
    (next : Continuation) :
    run (letter flags c) behind s next = (s.across behind [c]).bind next := by
  simp [letter, exact, State.step_across]

theorem run_literal (exact : flags.ignoresCase = false) (t : Text) (behind : Bool) (s : State)
    (next : Continuation) :
    run (.ofList (t.map (letter flags))) behind s next = (s.across behind t).bind next := by
  induction t generalizing s next with
  | nil => simp [Pattern.ofList]
  | cons c t ih =>
    cases behind with
    | false =>
      rw [List.map_cons, run_ofList_ahead, run_letter exact,
        show c :: t = [c] ++ t from rfl, State.across_append_ahead, Option.bind_assoc]
      congr 1
      funext s'
      exact ih s' next
    | true =>
      rw [List.map_cons, run_ofList_behind, ih, show c :: t = [c] ++ t from rfl,
        State.across_append_behind, Option.bind_assoc]
      congr 1
      funext s'
      exact run_letter exact c true s' next

/-- A group moves over the first of its texts from which the rest can go on. -/
theorem run_anyOf (exact : flags.ignoresCase = false) (l : List Text) (some : l ≠ [])
    (behind : Bool) (s : State) (next : Continuation) :
    run (anyOf flags l) behind s next = l.findSome? fun t => (s.across behind t).bind next := by
  induction l with
  | nil => exact absurd rfl some
  | cons t rest ih =>
    cases rest with
    | nil => simp [anyOf, run_literal exact]
    | cons u l =>
      have unfold : anyOf flags (t :: u :: l) =
          .alt (.ofList (t.map (letter flags))) (anyOf flags (u :: l)) := rfl
      rw [unfold, run_alt, run_literal exact, ih (by simp)]
      conv => rhs; rw [List.findSome?_cons]
      cases (s.across behind t).bind next <;> rfl

/-- A group of texts matches the first of them that stands here. -/
theorem matchLength_anyOf (exact : flags.ignoresCase = false) {l : List Text} (some : l ≠ [])
    (filled : [] ∉ l) (before after : Text) (forbidEmpty : Bool) :
    matchLength? (anyOf flags l) before after forbidEmpty =
      (l.find? (·.isPrefixOf after)).map List.length := by
  simp only [matchLength?, run_anyOf exact l some]
  clear some
  induction l with
  | nil => rfl
  | cons t rest ih =>
    obtain ⟨nonempty, filled⟩ := not_or.mp (List.mem_cons.not.mp filled)
    rw [List.findSome?_cons, List.find?_cons]
    cases stands : t.isPrefixOf after with
    | false =>
      simp only [State.across, stands, Bool.false_eq_true, ↓reduceIte, Option.bind_none]
      exact ih filled
    | true =>
      have fits : t.length ≤ after.length := (List.isPrefixOf_iff_prefix.mp stands).length_le
      have positive : 0 < t.length := List.length_pos_iff.mpr (Ne.symm nonempty)
      have moved : after.length - t.length ≠ after.length := by omega
      simp only [State.across, stands, Bool.false_eq_true, ↓reduceIte, Option.bind_some,
        List.length_drop, beq_eq_false_iff_ne.mpr moved, Bool.and_false, Option.map_some]
      exact congrArg Option.some (Nat.sub_sub_self fits)

/-! ### Elements that take no characters -/

/-- Elements after which the rest goes on at the same place or not at all. -/
def Still (ps : List Pattern) : Prop :=
  ∀ s : State,
    (∃ captures, ∀ next, run (.ofList ps) false s next = next { s with captures := captures }) ∨
      ∀ next, run (.ofList ps) false s next = none

theorem still_nil : Still [] := fun s => Or.inl ⟨s.captures, fun _ => rfl⟩

theorem still_anchor (a : Anchor) : Still [.anchor a] := by
  intro s
  by_cases h : a.holds s = true
  · exact Or.inl ⟨s.captures, fun next => by simp [Pattern.ofList, h]⟩
  · exact Or.inr fun next => by simp [Pattern.ofList, h]

theorem still_look (behind negative : Bool) (p : Pattern) : Still [.look behind negative p] := by
  intro s
  cases found : run p behind s some with
  | none =>
    cases negative with
    | true => exact Or.inl ⟨s.captures, fun next => by simp [Pattern.ofList, found]⟩
    | false => exact Or.inr fun next => by simp [Pattern.ofList, found]
  | some s' =>
    cases negative with
    | true => exact Or.inr fun next => by simp [Pattern.ofList, found]
    | false => exact Or.inl ⟨s'.captures, fun next => by simp [Pattern.ofList, found]⟩

def Passes (ps : List Pattern) (s : State) : Bool := (run (.ofList ps) false s some).isSome

theorem Still.run_eq {ps : List Pattern} (still : Still ps) (s : State) :
    ∃ captures, ∀ next, run (.ofList ps) false s next =
      if Passes ps s then next { s with captures := captures } else none := by
  rcases still s with ⟨captures, go⟩ | stop
  · exact ⟨captures, fun next => by simp [Passes, go]⟩
  · exact ⟨s.captures, fun next => by simp [Passes, stop]⟩

variable {first last : List Pattern} {f g : Text → Bool}

/-- A text between elements that take no characters matches itself where both let it. -/
theorem matchLength_between (exact : flags.ignoresCase = false) (hf : Still first)
    (hg : Still last) (f_spec : ∀ s, Passes first s = f s.before.reverse)
    (g_spec : ∀ s, Passes last s = g s.after) {t : Text} (some : t ≠ [])
    (before after : Text) (forbidEmpty : Bool) :
    matchLength? (.ofList (first ++ (t.map (letter flags) ++ last))) before.reverse after
        forbidEmpty =
      if t.isPrefixOf after && (f before && g (after.drop t.length)) then Option.some t.length
      else none := by
  obtain ⟨captures, start⟩ := hf.run_eq ⟨before.reverse, after, []⟩
  simp only [matchLength?, run_append_ahead, start, f_spec, List.reverse_reverse]
  cases f before with
  | false => simp
  | true =>
    simp only [↓reduceIte, Bool.true_and, run_literal exact, State.across, Bool.false_eq_true]
    cases stands : t.isPrefixOf after with
    | false => rfl
    | true =>
      obtain ⟨later, finish⟩ :=
        hg.run_eq ⟨t.reverse ++ before.reverse, after.drop t.length, captures⟩
      simp only [↓reduceIte, Option.bind_some, finish, g_spec, Bool.true_and]
      cases g (after.drop t.length) with
      | false => rfl
      | true =>
        have fits : t.length ≤ after.length :=
          (List.isPrefixOf_iff_prefix.mp stands).length_le
        have positive : 0 < t.length := List.length_pos_iff.mpr some
        simp
        omega

end SoundLaw.Regex
