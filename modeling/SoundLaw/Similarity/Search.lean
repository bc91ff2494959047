import SoundLaw.Similarity.Edit
import SoundLaw.Journal

/-!
Search of a lexicon by sound: the entries whose transcription is near to a query, nearest first.
-/
namespace SoundLaw
open Scale

structure LexiconEntry where
  id : Text
  romanized : Text := []
  phonetic : Text := []
  language : Text := []
  tags : List Text := []
deriving DecidableEq

structure Hit (α : Type) where
  entry : LexiconEntry
  distance : α

section
variable {α : Type} [Scale α]

def transcribed (entries : List LexiconEntry) : List LexiconEntry :=
  entries.filter fun e => !e.phonetic.isEmpty

/-- The entries with a transcription not farther than the threshold, nearest first. -/
def hits (m : Model) (inventory : List Text) (query : Text) (entries : List LexiconEntry)
    (threshold : α) : List (Hit α) :=
  let measured := (transcribed entries).map fun e =>
    (⟨e, wordDistance m inventory query e.phonetic⟩ : Hit α)
  sortBy (fun a b => !less b.distance a.distance) (measured.filter fun h => atMost h.distance threshold)

/-- The hits of a query with the blanks around it taken away; a blank query has none. -/
def search (m : Model) (inventory : List Text) (query : Text) (entries : List LexiconEntry)
    (threshold : α) : List (Hit α) :=
  if query.strip.isEmpty then [] else hits m inventory query.strip entries threshold

end

def searchLexicon {ε : Type} (m : Model) (inventory : List Text) (query : Text)
    (entries : List LexiconEntry) (threshold : Threshold) : Journal ε (List (Hit Float)) :=
  let found := search m inventory query entries threshold.toFloat
  if query.strip.isEmpty then pure found
  else ⟨[.searched query.strip (transcribed entries).length found.length threshold], .ok found⟩

end SoundLaw
