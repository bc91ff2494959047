import SoundLaw.Proofs.Json.Reading

/-!
JSON values written over lines read back. This holds of every value without floating-point numbers
whose whole numbers the reader keeps, whose objects hold each name once, and whose brackets are
not nested too deep.
-/
namespace SoundLaw

namespace Fields

theorem put_of_not_mem {name : Text} {fields : Fields} (value : Json)
    (new : name ∉ fields.map Prod.fst) : put name value fields = fields ++ [(name, value)] := by
  induction fields with
  | nil => rfl
  | cons entry rest ih =>
    obtain ⟨key, old⟩ := entry
    rw [List.map_cons, List.mem_cons, not_or] at new
    simp [put, Ne.symm new.1, ih new.2]

end Fields

namespace Json

/-- Values that the reader gives back as they were written; `depth` bounds the brackets. -/
inductive Plain (limits : Limits) : Nat → Json → Prop where
  | null {depth : Nat} : Plain limits depth .null
  | bool {depth : Nat} (b : Bool) : Plain limits depth (.bool b)
  | int {depth : Nat} (n : Int) (kept : limits.keepsInt n = true) : Plain limits depth (.int n)
  | text {depth : Nat} (t : Text) : Plain limits depth (.text t)
  | array {depth : Nat} (items : List Json) (plain : ∀ item ∈ items, Plain limits depth item) :
    Plain limits (depth + 1) (.array items)
  | object {depth : Nat} (fields : List (Text × Json)) (once : (fields.map Prod.fst).Nodup)
    (plain : ∀ field ∈ fields, Plain limits depth field.2) :
    Plain limits (depth + 1) (.object fields)

variable {limits : Limits} {depth level : Nat}

/-- The reader gives a value back, whatever follows that does not go on with it, given two calls
for each character. -/
def ReadsBack (limits : Limits) (depth level : Nat) (v : Json) : Prop :=
  ∀ fuel rest, EndsNumber rest → 2 * (indented level v).length ≤ fuel →
    readValue limits fuel depth (indented level v ++ rest) = some (v, rest)

/-! ### What stands around values -/

theorem skipSpace_cons {c : Char} (rest : Text) (dark : c ∉ [' ', '\t', '\n', '\r']) :
    skipSpace (c :: rest) = c :: rest := by
  simp only [List.mem_cons, List.not_mem_nil, or_false, not_or] at dark
  simp [skipSpace, dark]

theorem endsNumber_comma (rest : Text) : EndsNumber (',' :: rest) := by
  rintro c ⟨⟩
  decide

theorem endsNumber_newLine (rest : Text) : EndsNumber (newLine level ++ rest) := by
  rintro c ⟨⟩
  decide

theorem endsNumber_items (items : List Json) (outer : Nat) (rest : Text) :
    EndsNumber (indentedItems level items ++ (newLine outer ++ rest)) := by
  cases items with
  | nil => exact endsNumber_newLine rest
  | cons item more => exact endsNumber_comma _

theorem endsNumber_fields (fields : Fields) (outer : Nat) (rest : Text) :
    EndsNumber (indentedFields level fields ++ (newLine outer ++ rest)) := by
  cases fields with
  | nil => exact endsNumber_newLine rest
  | cons field more => exact endsNumber_comma _

theorem readValue_skipSpace (fuel : Nat) (t : Text) :
    readValue limits fuel depth (skipSpace t) = readValue limits fuel depth t := by
  cases fuel with
  | zero => rfl
  | succ fuel => rw [readValue, readValue, skipSpace_skipSpace]

theorem readItems_newLine (fuel : Nat) (t : Text) :
    readItems limits fuel depth (newLine level ++ t) = readItems limits fuel depth t := by
  cases fuel with
  | zero => rfl
  | succ fuel =>
    rw [readItems, readItems, ← readValue_skipSpace, skipSpace_newLine, readValue_skipSpace]

theorem readFields_newLine (fuel : Nat) (fields : Fields) (t : Text) :
    readFields limits fuel depth fields (newLine level ++ t) =
      readFields limits fuel depth fields t := by
  cases fuel with
  | zero => rfl
  | succ fuel => rw [readFields, readFields, skipSpace_newLine]

/-! ### Whole numbers -/

theorem digit_not_mem {c : Char} (digit : Text.isDigitIn 10 c = true) {l : List Char}
    (none : l.any (Text.isDigitIn 10) = false) : c ∉ l := by
  intro member
  have found : l.any (Text.isDigitIn 10) = true := List.any_eq_true.mpr ⟨c, member, digit⟩
  rw [none] at found
  cases found

theorem readValue_digit {c : Char} (fuel : Nat) (rest : Text)
    (digit : Text.isDigitIn 10 c = true) :
    readValue limits (fuel + 1) depth (c :: rest) = readNumber limits false (c :: rest) := by
  rw [readValue, skipSpace_cons rest (digit_not_mem digit (by decide))]
  split
  case h_8 => rfl
  all_goals
    rename_i same
    cases same
    exact absurd digit (by decide)

theorem decimal_starts (n : Nat) :
    ∃ c rest, Text.decimal n = c :: rest ∧ Text.isDigitIn 10 c = true := by
  cases spelled : Text.decimal n with
  | nil => exact absurd spelled (Text.decimal_ne_nil n)
  | cons c rest =>
    refine ⟨c, rest, rfl, Text.decimal_digits n c ?_⟩
    rw [spelled]
    exact List.mem_cons_self

theorem readValue_int {n : Int} (fuel : Nat) {rest : Text} (ends : EndsNumber rest)
    (kept : limits.keepsInt n = true) :
    readValue limits (fuel + 1) depth (Text.signedDecimal n ++ rest) = some (.int n, rest) := by
  cases n with
  | ofNat n =>
    have read : readNumber limits false (Text.decimal n ++ rest) = some (.int n, rest) :=
      readNumber_decimal ends kept
    obtain ⟨c, more, spelled, digit⟩ := decimal_starts n
    rw [Text.signedDecimal]
    rw [spelled] at read ⊢
    rw [List.cons_append] at read ⊢
    rw [readValue_digit fuel _ digit, read]
    rfl
  | negSucc n =>
    have read : readNumber limits true (Text.decimal (n + 1) ++ rest) =
        some (.int (.negSucc n), rest) := readNumber_decimal ends kept
    rw [Text.signedDecimal, List.cons_append, readValue,
      skipSpace_cons _ (by decide)]
    exact read

/-! ### Arrays and objects -/

theorem readItems_indented (item : Json) (more : List Json) (outer : Nat) (rest : Text)
    (reads : ∀ i ∈ item :: more, ReadsBack limits depth level i) (fuel : Nat)
    (enough : 2 * (indented level item ++ indentedItems level more).length < fuel) :
    readItems limits fuel depth
      (indented level item ++ (indentedItems level more ++ (newLine outer ++ ']' :: rest))) =
        some (item :: more, rest) := by
  induction more generalizing item fuel with
  | nil =>
    obtain ⟨fuel, rfl⟩ : ∃ f, fuel = f + 1 := ⟨fuel - 1, by omega⟩
    rw [List.length_append] at enough
    rw [readItems, reads item List.mem_cons_self fuel _ (endsNumber_items [] outer _) (by omega)]
    simp only [indentedItems, List.nil_append, skipSpace_newLine,
      skipSpace_cons (c := ']') rest (by decide)]
  | cons next more ih =>
    obtain ⟨fuel, rfl⟩ : ∃ f, fuel = f + 1 := ⟨fuel - 1, by omega⟩
    rw [List.forall_mem_cons] at reads
    simp only [indentedItems, List.length_append, List.length_cons] at enough
    have later := ih next reads.2 fuel (by rw [List.length_append]; omega)
    rw [readItems, reads.1 fuel _ (endsNumber_items (next :: more) outer _) (by omega)]
    simp only [indentedItems, List.cons_append, List.append_assoc,
      skipSpace_cons (c := ',') _ (by decide), readItems_newLine, later, Option.map_some]

def afterField (limits : Limits) (fuel depth : Nat) (fields : Fields) (tail : Text) :
    Option (Fields × Text) :=
  match skipSpace tail with
  | '\x7d' :: rest => some (fields, rest)
  | ',' :: rest => readFields limits fuel depth fields rest
  | _ => none

theorem readFields_field (name : Text) (value : Json) (done : Fields) (fuel : Nat) (tail : Text)
    (reads : ReadsBack limits depth level value) (new : name ∉ done.map Prod.fst)
    (ends : EndsNumber tail) (enough : 2 * (indented level value).length ≤ fuel) :
    readFields limits (fuel + 1) depth done
      (written name ++ (": ".toList ++ (indented level value ++ tail))) =
        afterField limits fuel depth (done ++ [(name, value)]) tail := by
  have spaced : readValue limits fuel depth (' ' :: (indented level value ++ tail)) =
      some (value, tail) := by
    rw [← readValue_skipSpace]
    show readValue limits fuel depth (skipSpace (indented level value ++ tail)) = _
    rw [readValue_skipSpace, reads fuel tail ends enough]
  have colon : ": ".toList = [':', ' '] := rfl
  simp only [written, colon, List.cons_append, List.append_assoc, List.nil_append, readFields,
    skipSpace_cons (c := '"') _ (by decide), readString_written,
    skipSpace_cons (c := ':') _ (by decide), spaced, Fields.put_of_not_mem value new]
  rfl

theorem readFields_indented (name : Text) (value : Json) (more done : Fields) (outer : Nat)
    (rest : Text) (reads : ∀ f ∈ (name, value) :: more, ReadsBack limits depth level f.2)
    (once : ((done ++ (name, value) :: more).map Prod.fst).Nodup) (fuel : Nat)
    (enough : 2 * (indented level value ++ indentedFields level more).length < fuel) :
    readFields limits fuel depth done
      (written name ++ (": ".toList ++ (indented level value ++
        (indentedFields level more ++ (newLine outer ++ '\x7d' :: rest))))) =
          some (done ++ (name, value) :: more, rest) := by
  have new : name ∉ done.map Prod.fst := by
    rw [List.map_append, List.map_cons, List.nodup_append] at once
    exact fun member => once.2.2 name member name List.mem_cons_self rfl
  obtain ⟨fuel, rfl⟩ : ∃ f, fuel = f + 1 := ⟨fuel - 1, by omega⟩
  induction more generalizing name value done fuel with
  | nil =>
    rw [List.length_append] at enough
    rw [readFields_field name value done fuel _ (reads _ List.mem_cons_self) new
      (endsNumber_fields [] outer _) (by omega), afterField]
    simp only [indentedFields, List.nil_append, skipSpace_newLine,
      skipSpace_cons (c := '\x7d') rest (by decide)]
  | cons next more ih =>
    obtain ⟨key, last⟩ := next
    rw [List.forall_mem_cons] at reads
    have split : done ++ (name, value) :: (key, last) :: more =
        done ++ [(name, value)] ++ (key, last) :: more := by simp
    rw [split] at once ⊢
    simp only [indentedFields, List.length_append, List.length_cons] at enough
    obtain ⟨fuel, rfl⟩ : ∃ f, fuel = f + 1 := ⟨fuel - 1, by omega⟩
    have later := ih key last (done ++ [(name, value)]) reads.2 once
      (by
        rw [List.map_append, List.map_cons, List.nodup_append] at once
        exact fun member => once.2.2 key member key List.mem_cons_self rfl)
      fuel (by rw [List.length_append]; omega)
    rw [readFields_field name value done (fuel + 1) _ reads.1 new
      (endsNumber_fields ((key, last) :: more) outer _) (by omega), afterField]
    simp only [indentedFields, List.cons_append, List.append_assoc,
      skipSpace_cons (c := ',') _ (by decide), readFields_newLine] at later ⊢
    exact later

/-! ### Values -/

theorem indented_starts (level : Nat) {v : Json} (plain : Plain limits depth v) (tail : Text) :
    ∃ c rest, indented level v ++ tail = c :: rest ∧ c ∉ [' ', '\t', '\n', '\r', ']'] := by
  cases plain with
  | null => exact ⟨_, _, rfl, by decide⟩
  | bool b => cases b <;> exact ⟨_, _, rfl, by decide⟩
  | int n kept =>
    cases n with
    | ofNat n =>
      obtain ⟨c, rest, spelled, digit⟩ := decimal_starts n
      refine ⟨c, rest ++ tail, ?_, digit_not_mem digit (by decide)⟩
      show Text.decimal n ++ tail = _
      rw [spelled]
      rfl
    | negSucc n => exact ⟨_, _, rfl, by decide⟩
  | text t => exact ⟨_, _, rfl, by decide⟩
  | array items plain => cases items <;> exact ⟨_, _, rfl, by decide⟩
  | object fields once plain => cases fields <;> exact ⟨_, _, rfl, by decide⟩

theorem Plain.fuel {v : Json} (plain : Plain limits depth v) {fuel : Nat}
    (enough : 2 * (indented level v).length ≤ fuel) : ∃ f, fuel = f + 1 := by
  obtain ⟨c, rest, begins, _⟩ := indented_starts level plain []
  rw [List.append_nil] at begins
  rw [begins, List.length_cons] at enough
  exact ⟨fuel - 1, by omega⟩

theorem Plain.array_readsBack {items : List Json} (plain : ∀ item ∈ items, Plain limits depth item)
    (reads : ∀ item ∈ items, ReadsBack limits depth (level + 1) item) :
    ReadsBack limits (depth + 1) level (.array items) := by
  intro fuel rest ends enough
  cases items with
  | nil =>
    obtain ⟨fuel, rfl⟩ : ∃ f, fuel = f + 1 := ⟨fuel - 1, by simp [indented] at enough; omega⟩
    rfl
  | cons item more =>
    simp only [indented, List.length_append, List.length_cons] at enough
    obtain ⟨fuel, rfl⟩ : ∃ f, fuel = f + 1 := ⟨fuel - 1, by omega⟩
    have read := readItems_indented item more level rest reads fuel
      (by rw [List.length_append]; omega)
    obtain ⟨c, tail, begins, apart⟩ := indented_starts (level + 1)
      (plain item List.mem_cons_self)
      (indentedItems (level + 1) more ++ (newLine level ++ ']' :: rest))
    have dark : c ∉ [' ', '\t', '\n', '\r'] ∧ c ≠ ']' := by
      simpa [and_assoc] using apart
    simp only [indented, List.cons_append, List.append_assoc, List.nil_append, readValue,
      skipSpace_cons (c := '[') _ (by decide), skipSpace_newLine]
    rw [begins] at read ⊢
    rw [skipSpace_cons tail dark.1]
    split
    · rename_i same
      cases same
      exact absurd rfl dark.2
    · rw [read]
      rfl

theorem Plain.object_readsBack {fields : Fields} (once : (fields.map Prod.fst).Nodup)
    (reads : ∀ field ∈ fields, ReadsBack limits depth (level + 1) field.2) :
    ReadsBack limits (depth + 1) level (.object fields) := by
  intro fuel rest ends enough
  cases fields with
  | nil =>
    obtain ⟨fuel, rfl⟩ : ∃ f, fuel = f + 1 := ⟨fuel - 1, by simp [indented] at enough; omega⟩
    rfl
  | cons field more =>
    obtain ⟨name, value⟩ := field
    simp only [indented, List.length_append, List.length_cons] at enough
    obtain ⟨fuel, rfl⟩ : ∃ f, fuel = f + 1 := ⟨fuel - 1, by omega⟩
    have read := readFields_indented name value more [] level rest reads once fuel
      (by rw [List.length_append]; omega)
    simp only [indented, List.cons_append, List.append_assoc, List.nil_append, readValue,
      skipSpace_cons (c := '\x7b') _ (by decide), skipSpace_newLine]
    have begins (t : Text) : skipSpace (written name ++ t) = written name ++ t :=
      skipSpace_cons (c := '"') _ (by decide)
    rw [begins]
    split
    · rename_i same
      cases same
    · rw [read]
      rfl

theorem Plain.readsBack {v : Json} (plain : Plain limits depth v) (level : Nat) :
    ReadsBack limits depth level v := by
  induction plain generalizing level with
  | array items plain reads =>
    exact array_readsBack plain fun item member => reads item member (level + 1)
  | object fields once plain reads =>
    exact object_readsBack once fun field member => reads field member (level + 1)
  | null =>
    intro fuel rest ends enough
    obtain ⟨fuel, rfl⟩ := (null : Plain limits 0 _).fuel enough
    rfl
  | bool b =>
    intro fuel rest ends enough
    obtain ⟨fuel, rfl⟩ := (bool b : Plain limits 0 _).fuel enough
    cases b <;> rfl
  | int n kept =>
    intro fuel rest ends enough
    obtain ⟨fuel, rfl⟩ := (int n kept : Plain limits 0 _).fuel enough
    exact readValue_int fuel ends kept
  | text t =>
    intro fuel rest ends enough
    obtain ⟨fuel, rfl⟩ := (text t : Plain limits 0 _).fuel enough
    simp [indented, written, readValue, skipSpace_cons (c := '"'), readString_written]

/-- What is written over lines is read as it was. -/
theorem read?_indented {v : Json} (plain : Plain limits limits.depth v) (level : Nat) :
    read? limits (indented level v) = some v := by
  have nothing : EndsNumber [] := nofun
  have read := plain.readsBack level (2 * (indented level v).length + 2) [] nothing
    (by omega)
  rw [List.append_nil] at read
  rw [read?, read]
  rfl

end Json
end SoundLaw
