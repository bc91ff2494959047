import SoundLaw.Regex.Syntax

/-!
Ordered backtracking. A pattern is matched in a direction, and what follows it is a continuation:
the first way through a pattern and its continuation wins. Lookbehinds run against the reading
direction, from the place where they stand.
-/
namespace SoundLaw.Regex

abbrev Captures := List (Nat × Nat × Nat)

/-- A place in a text, with the text on both sides and the groups matched so far. -/
structure State where
  /-- The text before the place, last character first. -/
  before : Text
  after : Text
  captures : Captures
deriving DecidableEq

namespace State

def position (s : State) : Nat := s.before.length

def capture (s : State) (n first last : Nat) : State :=
  { s with captures := (n, first, last) :: s.captures.filter fun c => c.1 ≠ n }

def captured? (s : State) (n : Nat) : Option Text :=
  match s.captures.find? (·.1 = n) with
  | some (_, first, last) =>
    some (((s.before.reverse ++ s.after).drop first).take (last - first))
  | none => none

/-- More rounds than a repeat can take from here: each one moves or changes a group. -/
def roundLimit (s : State) : Nat := 2 * (s.before.length + s.after.length) + s.captures.length + 3

def step (behind : Bool) (test : Nat → Bool) (s : State) : Option State :=
  if behind then
    match s.before with
    | c :: rest => if test c.toNat then some { s with before := rest, after := c :: s.after } else none
    | [] => none
  else
    match s.after with
    | c :: rest => if test c.toNat then some { s with before := c :: s.before, after := rest } else none
    | [] => none

def steps (behind : Bool) : List (Nat → Bool) → State → Option State
  | [], s => some s
  | test :: rest, s => (s.step behind test).bind (steps behind rest)

end State

def isWordAt : Text → Bool
  | c :: _ => Unicode.isWord c.toNat
  | [] => false

namespace Anchor

def holds (s : State) : Anchor → Bool
  | .start => s.before.isEmpty
  | .finish => s.after.isEmpty
  | .finishOrNewline => s.after.isEmpty || s.after == ['\n']
  | .lineStart => s.before.isEmpty || s.before.head? == some '\n'
  | .lineFinish => s.after.isEmpty || s.after.head? == some '\n'
  | .boundary => isWordAt s.before != isWordAt s.after
  | .noBoundary => isWordAt s.before == isWordAt s.after
  | .wordStart => !isWordAt s.before && isWordAt s.after
  | .wordFinish => isWordAt s.before && !isWordAt s.after

end Anchor

abbrev Continuation := State → Option State

/-- Rounds of a repeat. After a round that changed neither the place nor a group no further round
is tried; `fuel` bounds the rounds. -/
def rounds (body : State → Continuation → Option State) (lazy : Bool) (least : Nat)
    (most : Option Nat) : Nat → Nat → State → Continuation → Option State
  | 0, _, s, next => next s
  | fuel + 1, done, s, next =>
    let more : Unit → Option State := fun _ =>
      if most.all (done < ·) then
        body s fun s' =>
          if s'.before.length = s.before.length && s'.captures = s.captures then next s'
          else rounds body lazy least most fuel (done + 1) s' next
      else none
    if done < least then more ()
    else if lazy then (next s).orElse more
    else (more ()).orElse fun _ => next s

/-- The first way through the pattern and on through `next`. -/
def run : Pattern → Bool → State → Continuation → Option State
  | .empty, _, s, next => next s
  | .one test, behind, s, next => (s.step behind test.holds).bind next
  | .anchor a, _, s, next => if a.holds s then next s else none
  | .seq p q, false, s, next => run p false s fun s' => run q false s' next
  | .seq p q, true, s, next => run q true s fun s' => run p true s' next
  | .alt p q, behind, s, next => (run p behind s next).orElse fun _ => run q behind s next
  | .group n p, behind, s, next =>
    run p behind s fun s' =>
      next (s'.capture n (min s.position s'.position) (max s.position s'.position))
  | .again (.number n) ignoreCase, behind, s, next =>
    match s.captured? n with
    | none => none
    | some t =>
      let tests := t.map fun c => (CharTest.code c.toNat ignoreCase).holds
      (s.steps behind (if behind then tests.reverse else tests)).bind next
  | .again (.name _) _, _, _, _ => none
  | .look behind negative p, _, s, next =>
    match run p behind s some with
    | some s' => if negative then none else next { s with captures := s'.captures }
    | none => if negative then next s else none
  | .atomic p, behind, s, next => (run p behind s some).bind next
  | .repeated .possessive least most p, behind, s, next =>
    (rounds (run p behind) false least most
      s.roundLimit 0 s some).bind next
  | .repeated greed least most p, behind, s, next =>
    rounds (run p behind) (greed = .lazy) least most
      s.roundLimit 0 s next

/-- The length of the match at a place. A match of no character may be forbidden. -/
def matchLength? (p : Pattern) (before after : Text) (forbidEmpty : Bool) : Option Nat :=
  let found := run p false ⟨before, after, []⟩ fun s =>
    if forbidEmpty && s.after.length == after.length then none else some s
  found.map fun s => after.length - s.after.length

/-- Passes over `skip` characters of the match before, then puts at each place what `new` makes of
the match, if there is one, and else keeps the character. After a match of no character the next
match at the same place must have some. -/
def replaceFrom (p : Pattern) (new : Text → Text) : Nat → Text → Text → Text
  | skip + 1, before, c :: rest => replaceFrom p new skip (c :: before) rest
  | _, before, [] => if (matchLength? p before [] false).isSome then new [] else []
  | 0, before, c :: rest =>
    match matchLength? p before (c :: rest) false with
    | some (n + 1) => new (c :: rest.take n) ++ replaceFrom p new n (c :: before) rest
    | some 0 =>
      match matchLength? p before (c :: rest) true with
      | some (n + 1) =>
        new [] ++ new (c :: rest.take n) ++ replaceFrom p new n (c :: before) rest
      | _ => new [] ++ c :: replaceFrom p new 0 (c :: before) rest
    | none => c :: replaceFrom p new 0 (c :: before) rest

def replaceEach (p : Pattern) (new : Text → Text) (t : Text) : Text := replaceFrom p new 0 [] t

def replaceAll (p : Pattern) (new t : Text) : Text := replaceEach p (fun _ => new) t

end SoundLaw.Regex
