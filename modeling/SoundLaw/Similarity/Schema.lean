import SoundLaw.Similarity.Search
import SoundLaw.Schema.Check
import SoundLaw.Rule.Document

/-!
Lexicon entries and search hits read out of JSON values and written as such.
-/
namespace SoundLaw
open Checked

namespace LexiconEntry

def checkFields (fields : Fields) : Checked LexiconEntry :=
  let text (name : Text) : Checked Text := fields.defaulted name [] Json.checkText
  (fun ((id, romanized), (phonetic, language), tags) =>
      ⟨id, romanized, phonetic, language, tags⟩) <$>
    both (both (fields.required "entry_id" Json.checkText) (text "con_word_romanized"))
      (both (both (text "phonetic_ipa") (text "language_id"))
        (fields.defaulted "tags" [] Json.checkTexts))

def check : Json → Checked LexiconEntry := Json.checkRecord "LexiconEntry" checkFields

def json (e : LexiconEntry) : Json :=
  .object
    [("entry_id", .text e.id), ("con_word_romanized", .text e.romanized),
     ("phonetic_ipa", .text e.phonetic), ("language_id", .text e.language),
     ("tags", .texts e.tags)]

end LexiconEntry

namespace Hit

def checkFields (fields : Fields) : Checked (Hit Float) :=
  (fun (entry, distance) => ⟨entry, distance⟩) <$> both
    (fields.required "entry" LexiconEntry.check) (fields.required "distance" Json.checkUnitReal)

def check : Json → Checked (Hit Float) := Json.checkRecord "SimilarityResult" checkFields

def json (h : Hit Float) : Json :=
  .object [("entry", h.entry.json), ("distance", .float h.distance)]

end Hit
end SoundLaw
