import SoundLaw.Timing
import SoundLaw.Proofs.Rule.Records

/-!
Timed blocks. A timer tells of the start and of the end of its work and leaves the work as it is,
as long as no field has a name that the timer or the telling of an event uses itself. A field with
such a name puts a fault in the place of what the work ends in, or keeps the work from starting.
-/
namespace SoundLaw

/-! ### Names that are taken -/

namespace Fields
variable {names more : List Text} {name : Text} {fields own : Fields}

def Clashes (names : List Text) (fields : Fields) (name : Text) : Prop :=
  name ∈ names ∧ name ∈ fields.map Prod.fst

def Avoids (names : List Text) (fields : Fields) : Prop :=
  ∀ name ∈ fields.map Prod.fst, name ∉ names

instance : Decidable (fields.Avoids names) :=
  inferInstanceAs (Decidable (∀ name ∈ fields.map Prod.fst, name ∉ names))

theorem taken?_eq_none : fields.taken? names = none ↔ fields.Avoids names := by
  simp [taken?, Avoids]

theorem exists_taken (clash : ¬ fields.Avoids names) :
    ∃ name, fields.taken? names = some name ∧ fields.Clashes names name := by
  obtain ⟨name, found⟩ := Option.ne_none_iff_exists'.mp (mt taken?_eq_none.mp clash)
  obtain ⟨entry, first, rfl⟩ := Option.map_eq_some_iff.mp found
  have listed := List.find?_some first
  exact ⟨entry.1, found, of_decide_eq_true listed,
    List.mem_map_of_mem (List.mem_of_find?_eq_some first)⟩

theorem avoids_names_append :
    fields.Avoids (names ++ more) ↔ fields.Avoids names ∧ fields.Avoids more := by
  simp only [Avoids, List.mem_append, not_or, forall_and]

theorem avoids_append : (own ++ fields).Avoids names ↔ own.Avoids names ∧ fields.Avoids names := by
  simp only [Avoids, List.map_append, List.mem_append, or_imp, forall_and]

theorem get?_eq_none_of_not_mem (absent : name ∉ fields.map Prod.fst) :
    fields.get? name = none := by
  induction fields with
  | nil => rfl
  | cons entry rest ih =>
    rw [List.map_cons, List.mem_cons, not_or] at absent
    rw [get?, if_neg (Ne.symm absent.1), ih absent.2]

theorem get?_left_out (names : List Text) (name : Text) (fields : Fields) :
    get? name (fields.filter fun entry => entry.1 ∉ names) =
      if name ∈ names then none else fields.get? name := by
  induction fields with
  | nil => exact (ite_self none).symm
  | cons entry rest ih =>
    by_cases left_out : entry.1 ∈ names
    · rw [List.filter_cons_of_neg (by simpa using left_out), ih, get?]
      by_cases here : entry.1 = name
      · rw [if_pos (here ▸ left_out), if_pos (here ▸ left_out)]
      · rw [if_neg here]
    · rw [List.filter_cons_of_pos (by simpa using left_out), get?, get?, ih]
      by_cases here : entry.1 = name
      · rw [if_pos here, if_neg (here ▸ left_out), if_pos here]
      · rw [if_neg here, if_neg here]

theorem get?_behind (absent : name ∉ own.map Prod.fst) :
    get? name (own ++ fields) = fields.get? name := by
  rw [get?_append, get?_eq_none_of_not_mem absent]
  rfl

theorem mem_of_get? {value : Json} (found : fields.get? name = some value) :
    name ∈ fields.map Prod.fst := by
  by_contra absent
  cases (get?_eq_none_of_not_mem absent).symm.trans found

/-- Nothing stands where the name of the logger is looked for. -/
def Unrecorded (fields : Fields) : Prop := (fields.get? recordName).all Json.isNull = true

instance : Decidable fields.Unrecorded :=
  inferInstanceAs (Decidable ((fields.get? recordName).all Json.isNull = true))

/-- A field that keeps an event from being told, where all of `names` are taken. -/
def Blocks (names : List Text) (fields : Fields) (name : Text) : Prop :=
  fields.Clashes names name ∨ name = recordName ∧ ¬ fields.Unrecorded

theorem untellable?_eq_none :
    fields.untellable? = none ↔ fields.Avoids eventNames ∧ fields.Unrecorded := by
  rw [untellable?, Option.or_eq_none_iff, taken?_eq_none]
  simp [Unrecorded]

theorem exists_untellable (clash : ¬ (fields.Avoids eventNames ∧ fields.Unrecorded)) :
    ∃ name, fields.untellable? = some name ∧ fields.Blocks eventNames name := by
  by_cases free : fields.Avoids eventNames
  · have recorded : ¬ fields.Unrecorded := fun unrecorded => clash ⟨free, unrecorded⟩
    refine ⟨recordName, ?_, .inr ⟨rfl, recorded⟩⟩
    rw [untellable?, taken?_eq_none.mpr free, Option.none_or]
    exact if_neg recorded
  · obtain ⟨name, found, clashes⟩ := exists_taken free
    exact ⟨name, by rw [untellable?, found, Option.some_or], .inl clashes⟩

end Fields

/-! ### Records of events -/

/-- The record of an event shows its fields, but for those that every record fills itself and those
that none shows. -/
theorem Event.get?_record {name : Text} (e : Event) (language : Option Text)
    (own : name ≠ "event".toList ∧ name ≠ "logger".toList) :
    Fields.get? name (e.record language) =
      if name = "level".toList then some (.text e.level.text)
      else if name = "language_id".toList ∧ language.getD [] ≠ [] then language.map .text
      else if name ∈ requests ++ replaced e.fields then none
      else e.fields.get? name := by
  rw [← Fields.get?_left_out]
  unfold record
  rw [Fields.get?_put_other own.2]
  by_cases level : name = "level".toList
  · rw [if_pos level, level, Fields.get?_put]
  · rw [if_neg level, Fields.get?_put_other level, Fields.get?_put_other own.1]
    cases language with
    | none => exact (if_neg fun set => set.2 rfl).symm
    | some id =>
      cases id with
      | nil => exact (if_neg fun set => set.2 rfl).symm
      | cons c rest =>
        by_cases here : name = "language_id".toList
        · rw [if_pos ⟨here, List.cons_ne_nil c rest⟩, here]
          exact Fields.get?_put _ _ _
        · rw [if_neg fun set => here set.1]
          exact Fields.get?_put_other here _ _

variable {ε α : Type} {source : Source} {level : Level} {operation name : Text}
  {names : List Text} {fields own : Fields} {notice : ε → Notice} {work : Journal ε α}

theorem Event.replaced_append (silent : own.Avoids requests) :
    replaced (own ++ fields) = replaced fields := by
  have unasked (request : Text) (listed : request ∈ requests) :
      Fields.get? request (own ++ fields) = fields.get? request :=
    Fields.get?_behind fun member => silent request member listed
  dsimp only [replaced]
  rw [unasked _ List.mem_cons_self, unasked _ (List.mem_cons_of_mem _ List.mem_cons_self)]

theorem note_free (free : fields.Avoids eventNames) (unrecorded : fields.Unrecorded) :
    (note source level name fields : Journal (TimingFault ε) Unit) =
      Journal.tell (.noted source level name fields) := by
  rw [note, Fields.untellable?_eq_none.mpr ⟨free, unrecorded⟩]

/-! ### Timers -/

namespace Timer

def startNames : List Text := ownNames ++ eventNames

/-- The start can be told of with these fields. -/
structure Starts (fields : Fields) : Prop where
  free : fields.Avoids startNames
  unrecorded : fields.Unrecorded

/-- Names that the telling of the end uses itself, by how the work ended. -/
def endNames : Except ε α → List Text
  | .ok _ => ["duration_ms", "success"]
  | .error _ => ["duration_ms", "error", "error_type", "success"]

def started (source : Source) (operation : Text) (fields : Fields) : Event :=
  .noted source .debug (operation ++ "_started") fields

def ended (source : Source) (operation : Text) (fields : Fields) (notice : ε → Notice) :
    Except ε α → Event
  | .ok _ => .noted source .info (operation ++ "_completed") (success ++ fields)
  | .error e => .noted source .error (operation ++ "_failed") (failure (notice e) ++ fields)

/-- The work ends as it does alone, with one event before its own and one behind them. -/
def Transparent (source : Source) (operation : Text) (fields : Fields) (notice : ε → Notice)
    (work : Journal ε α) : Prop :=
  timer source operation fields notice work =
    ⟨started source operation fields :: work.events ++
      [ended source operation fields notice work.outcome], work.outcome.mapError .work⟩

theorem finish_free (told : own.Avoids (recordName :: eventNames)) (starts : Starts fields)
    (apart : fields.Avoids ("duration_ms".toList :: own.map Prod.fst)) :
    (finish source level name own fields : Journal (TimingFault ε) Unit) =
      Journal.tell (.noted source level name (own ++ fields)) := by
  have free := (Fields.avoids_names_append.mp starts.free).2
  have unrecorded : Fields.Unrecorded (own ++ fields) := by
    unfold Fields.Unrecorded
    rw [Fields.get?_behind fun member => told recordName member List.mem_cons_self]
    exact starts.unrecorded
  have own_free : own.Avoids eventNames := fun name member used =>
    told name member (List.mem_cons_of_mem recordName used)
  rw [finish, Fields.taken?_eq_none.mpr apart]
  exact note_free (Fields.avoids_append.mpr ⟨own_free, free⟩) unrecorded

theorem finish_clash (own : Fields)
    (clash : ¬ fields.Avoids ("duration_ms".toList :: own.map Prod.fst)) :
    ∃ taken, fields.Clashes ("duration_ms".toList :: own.map Prod.fst) taken ∧
      (finish source level name own fields : Journal (TimingFault ε) Unit) =
        Journal.raise (.taken taken) := by
  obtain ⟨taken, found, clashes⟩ := Fields.exists_taken clash
  exact ⟨taken, clashes, by rw [finish, found]⟩

def closing (source : Source) (operation : Text) (fields : Fields) (notice : ε → Notice) :
    Except ε α → Journal (TimingFault ε) Unit
  | .ok _ => finish source .info (operation ++ "_completed") success fields
  | .error e => finish source .error (operation ++ "_failed") (failure (notice e)) fields

theorem failure_avoids
    (apart : ∀ name ∈ (["error", "error_type", "success"] : List Text), name ∉ names) (n : Notice) :
    (failure n).Avoids names := apart

theorem closing_free (starts : Starts fields) {outcome : Except ε α}
    (apart : fields.Avoids (endNames outcome)) :
    closing source operation fields notice outcome =
      Journal.tell (ended source operation fields notice outcome) := by
  cases outcome with
  | ok a => exact finish_free (by decide) starts apart
  | error e => exact finish_free (failure_avoids (by decide) _) starts apart

theorem closing_clash {outcome : Except ε α} (clash : ¬ fields.Avoids (endNames outcome)) :
    ∃ taken, fields.Clashes (endNames outcome) taken ∧
      closing source operation fields notice outcome = Journal.raise (.taken taken) := by
  cases outcome with
  | ok a => exact finish_clash success clash
  | error e => exact finish_clash (failure (notice e)) clash

theorem timer_unstarted (blocked : ¬ Starts fields) :
    ∃ taken, fields.Blocks startNames taken ∧
      timer source operation fields notice work = Journal.raise (.taken taken) := by
  by_cases own : fields.Avoids ownNames
  · have untold : ¬ (fields.Avoids eventNames ∧ fields.Unrecorded) := fun tellable =>
      blocked ⟨Fields.avoids_names_append.mpr ⟨own, tellable.1⟩, tellable.2⟩
    obtain ⟨taken, found, blocks⟩ := Fields.exists_untellable untold
    refine ⟨taken, ?_, ?_⟩
    · rcases blocks with ⟨listed, used⟩ | recorded
      · exact .inl ⟨List.mem_append_right _ listed, used⟩
      · exact .inr recorded
    · rw [timer, Fields.taken?_eq_none.mpr own, note, found]
      exact Journal.bind_error rfl _
  · obtain ⟨taken, found, listed, used⟩ := Fields.exists_taken own
    exact ⟨taken, .inl ⟨List.mem_append_left _ listed, used⟩, by rw [timer, found]⟩

/-- Once the start is told the work is done, and then the end is told before the work ends. -/
theorem timer_started (starts : Starts fields) :
    timer source operation fields notice work = (do
      Journal.tell (started source operation fields)
      Journal.mk work.events (.ok ())
      closing source operation fields notice work.outcome
      Journal.ofExcept (work.outcome.mapError .work)) := by
  obtain ⟨own, told⟩ := Fields.avoids_names_append.mp starts.free
  rw [timer, Fields.taken?_eq_none.mpr own, note_free told starts.unrecorded]
  cases work.outcome <;> rfl

theorem timer_free (starts : Starts fields)
    (apart : fields.Avoids (endNames work.outcome)) :
    Transparent source operation fields notice work := by
  rw [Transparent, timer_started starts, closing_free starts apart]
  rfl

theorem timer_clash (starts : Starts fields)
    (clash : ¬ fields.Avoids (endNames work.outcome)) :
    ∃ taken, fields.Clashes (endNames work.outcome) taken ∧
      timer source operation fields notice work =
        ⟨started source operation fields :: work.events, .error (.taken taken)⟩ := by
  obtain ⟨taken, clashes, raised⟩ := closing_clash clash
  refine ⟨taken, clashes, ?_⟩
  rw [timer_started starts, raised]
  show Journal.mk (started source operation fields :: (work.events ++ [])) _ = _
  rw [List.append_nil]
  rfl

theorem not_transparent {events : List Event} {taken : Text}
    (raised : timer source operation fields notice work = ⟨events, .error (.taken taken)⟩) :
    ¬ Transparent source operation fields notice work := by
  intro transparent
  have same := congrArg Journal.outcome (raised.symm.trans transparent)
  cases ended : work.outcome <;> rw [ended] at same <;> cases same

theorem told_fields (name : Text) {outcome : Except ε α} (apart : fields.Avoids (endNames outcome))
    {event : Event} (told : event = started source operation fields ∨
      event = ended source operation fields notice outcome) :
    Event.replaced event.fields = Event.replaced fields ∧
      ∀ value, fields.get? name = some value → event.fields.get? name = some value := by
  have own {own : Fields} (silent : own.Avoids Event.requests)
      (listed : ∀ other ∈ own.map Prod.fst, other ∈ endNames outcome) :
      Event.replaced (own ++ fields) = Event.replaced fields ∧
        ∀ value, fields.get? name = some value → Fields.get? name (own ++ fields) = some value := by
    refine ⟨Event.replaced_append silent, fun value given => ?_⟩
    rwa [Fields.get?_behind fun other =>
      apart name (Fields.mem_of_get? given) (listed name other)]
  rcases told with rfl | rfl
  · exact ⟨rfl, fun _ given => given⟩
  · cases outcome with
    | ok a => exact own (by decide) fun other => List.mem_cons_of_mem _
    | error e => exact own (failure_avoids (by decide) _) fun other => List.mem_cons_of_mem _

theorem get?_recorded {outcome : Except ε α} (starts : Starts fields)
    (apart : fields.Avoids (endNames outcome)) {value : Json}
    (given : fields.get? name = some value) {event : Event}
    (told : event = started source operation fields ∨
      event = ended source operation fields notice outcome) (language : Option Text)
    (kept : name ∉ Event.replaced fields) :
    Fields.get? name (event.record language) =
      if name = "level".toList then some (.text event.level.text)
      else if name = "language_id".toList ∧ language.getD [] ≠ [] then language.map .text
      else if name ∈ Event.requests then none
      else some value := by
  have unused := starts.free name (Fields.mem_of_get? given)
  have own : name ≠ "event".toList ∧ name ≠ "logger".toList := by
    constructor <;> rintro rfl <;> exact unused (by decide)
  obtain ⟨same, held⟩ := told_fields name apart told
  rw [event.get?_record language own, same, held value given]
  simp only [List.mem_append, kept, or_false]

end Timer

open Timer

/-- A timer is transparent exactly when no field has a name that is used for the start or for the
end that the work comes to, and nothing stands where the name of the logger is looked for. A field
that is in the way of the start keeps the work from starting; a name that is used for the end comes,
once the work is done, in the place of what it ended in. The two events are recorded with the fields
of the timer, but for the level and the language, which every record sets itself, the requests that
it takes out, and the fields in whose places it has texts of its own. -/
theorem timer_transparent_iff (source : Source) (operation : Text) (fields : Fields)
    (notice : ε → Notice) (work : Journal ε α) :
    (Transparent source operation fields notice work ↔
      Starts fields ∧ fields.Avoids (endNames work.outcome)) ∧
    (¬ Starts fields → ∃ name, fields.Blocks startNames name ∧
      timer source operation fields notice work = ⟨[], .error (.taken name)⟩) ∧
    (Starts fields → ¬ fields.Avoids (endNames work.outcome) →
      ∃ name, fields.Clashes (endNames work.outcome) name ∧
        timer source operation fields notice work =
          ⟨started source operation fields :: work.events, .error (.taken name)⟩) ∧
    (Starts fields → fields.Avoids (endNames work.outcome) →
      ∀ event, event = started source operation fields ∨
          event = ended source operation fields notice work.outcome →
        ∀ language name value, fields.get? name = some value → name ∉ Event.replaced fields →
          Fields.get? name (event.record language) =
            if name = "level".toList then some (.text event.level.text)
            else if name = "language_id".toList ∧ language.getD [] ≠ [] then language.map .text
            else if name ∈ Event.requests then none
            else some value) := by
  refine ⟨⟨fun transparent => ?_, fun avoids => timer_free avoids.1 avoids.2⟩, timer_unstarted,
    timer_clash, ?_⟩
  · by_contra clash
    by_cases starts : Starts fields
    · obtain ⟨_, _, raised⟩ := timer_clash starts fun apart => clash ⟨starts, apart⟩
      exact not_transparent raised transparent
    · obtain ⟨_, _, raised⟩ := timer_unstarted starts
      exact not_transparent raised transparent
  · intro starts apart event told language name value given kept
    exact get?_recorded starts apart given told language kept

def scanNotice (error : Text) : Notice := ⟨error, "ValueError"⟩

theorem timer_transparent_iff_scan :
    let entries : Fields := [("entries", .int 3), ("exc_info", .bool false)]
    let recorded : Fields := [("_record", .text "log")]
    let success : Fields := [("success", .bool true)]
    let scan : Journal Text Nat := pure 1
    let broken : Journal Text Nat := Journal.raise "bad thing"
    (Starts entries ∧ entries.Avoids (endNames broken.outcome) ∧
      Transparent .command "scan" entries scanNotice broken ∧
      Fields.get? "entries" ((started .command "scan" entries).record none) = some (.int 3) ∧
      Fields.get? "exc_info" ((started .command "scan" entries).record none) = none) ∧
      (¬ Starts recorded ∧
        ∃ name, timer .command "scan" recorded scanNotice scan = ⟨[], .error (.taken name)⟩) ∧
      (Starts success ∧ ¬ success.Avoids (endNames scan.outcome) ∧
        ∃ name, timer .command "scan" success scanNotice scan =
          ⟨[started .command "scan" success], .error (.taken name)⟩) := by
  intro entries recorded success scan broken
  have starts : Starts entries := ⟨by decide, by decide⟩
  have apart : entries.Avoids (endNames broken.outcome) := by decide
  obtain ⟨transparent, _, _, shown⟩ :=
    timer_transparent_iff .command "scan" entries scanNotice broken
  have unstarted : ¬ Starts recorded := fun starts => absurd starts.unrecorded (by decide)
  obtain ⟨early, _, kept⟩ :=
    (timer_transparent_iff .command "scan" recorded scanNotice scan).2.1 unstarted
  have free : Starts success := ⟨by decide, by decide⟩
  have clash : ¬ success.Avoids (endNames scan.outcome) := by decide
  obtain ⟨late, _, raised⟩ :=
    (timer_transparent_iff .command "scan" success scanNotice scan).2.2.1 free clash
  exact ⟨⟨starts, apart, transparent.mpr ⟨starts, apart⟩,
      shown starts apart _ (.inl rfl) none _ (.int 3) rfl (by decide),
      shown starts apart _ (.inl rfl) none _ (.bool false) rfl (by decide)⟩,
    ⟨unstarted, early, kept⟩, free, clash, late, raised⟩

/-- A field named like one that tells of the end replaces the value that is returned, and the error
that is raised. -/
theorem timer_replaces_outcome :
    let scan : Journal Text Nat := pure 1
    let broken : Journal Text Nat := Journal.raise "bad thing"
    ¬ Transparent .command "scan" [("success", .bool true)] scanNotice scan ∧
      ¬ Transparent .command "scan" [("error", .text "late")] scanNotice broken := by
  intro scan broken
  have replaced : timer .command "scan" [("success", .bool true)] scanNotice scan =
      ⟨[started .command "scan" [("success", .bool true)]], .error (.taken "success")⟩ := rfl
  have covered : timer .command "scan" [("error", .text "late")] scanNotice broken =
      ⟨[started .command "scan" [("error", .text "late")]], .error (.taken "error")⟩ := rfl
  exact ⟨not_transparent replaced, not_transparent covered⟩

end SoundLaw
