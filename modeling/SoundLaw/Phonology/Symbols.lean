import SoundLaw.Phonology.Model

/-!
The built-in feature model: the symbols of the phonetic alphabet with their features, and the
dimensions to which the features belong.
-/
namespace SoundLaw

namespace Feature

def types : List Text := ["consonant", "vowel"]

def manners : List Text :=
  ["stop", "fricative", "nasal", "trill", "tap", "lateral", "approximant", "affricate"]

def places : List Text :=
  ["bilabial", "labiodental", "dental", "alveolar", "postalveolar", "retroflex",
   "alveolopalatal", "palatal", "velar", "uvular", "pharyngeal", "glottal"]

def voicings : List Text := ["voiced", "voiceless"]

def classified : List Text := types ++ manners ++ places ++ voicings

end Feature

namespace Model

def symbols : List (String × String) :=
  [
   -- stops
   ("p", "consonant stop bilabial voiceless"),
   ("b", "consonant stop bilabial voiced"),
   ("t", "consonant stop alveolar voiceless"),
   ("d", "consonant stop alveolar voiced"),
   ("ʈ", "consonant stop retroflex voiceless"),
   ("ɖ", "consonant stop retroflex voiced"),
   ("c", "consonant stop palatal voiceless"),
   ("ɟ", "consonant stop palatal voiced"),
   ("k", "consonant stop velar voiceless"),
   ("ɡ", "consonant stop velar voiced"),
   ("g", "consonant stop velar voiced"),
   ("q", "consonant stop uvular voiceless"),
   ("ɢ", "consonant stop uvular voiced"),
   ("ʔ", "consonant stop glottal voiceless"),
   -- nasals
   ("m", "consonant nasal bilabial voiced"),
   ("ɱ", "consonant nasal labiodental voiced"),
   ("n", "consonant nasal alveolar voiced"),
   ("ɳ", "consonant nasal retroflex voiced"),
   ("ɲ", "consonant nasal palatal voiced"),
   ("ŋ", "consonant nasal velar voiced"),
   ("ɴ", "consonant nasal uvular voiced"),
   -- trills
   ("r", "consonant trill alveolar voiced"),
   ("ʀ", "consonant trill uvular voiced"),
   ("ʙ", "consonant trill bilabial voiced"),
   -- taps
   ("ɾ", "consonant tap alveolar voiced"),
   ("ɽ", "consonant tap retroflex voiced"),
   -- fricatives
   ("ɸ", "consonant fricative bilabial voiceless"),
   ("β", "consonant fricative bilabial voiced"),
   ("f", "consonant fricative labiodental voiceless"),
   ("v", "consonant fricative labiodental voiced"),
   ("θ", "consonant fricative dental voiceless"),
   ("ð", "consonant fricative dental voiced"),
   ("s", "consonant fricative alveolar voiceless"),
   ("z", "consonant fricative alveolar voiced"),
   ("ʃ", "consonant fricative postalveolar voiceless"),
   ("ʒ", "consonant fricative postalveolar voiced"),
   ("ʂ", "consonant fricative retroflex voiceless"),
   ("ʐ", "consonant fricative retroflex voiced"),
   ("ɕ", "consonant fricative alveolopalatal voiceless"),
   ("ʑ", "consonant fricative alveolopalatal voiced"),
   ("ç", "consonant fricative palatal voiceless"),
   ("ʝ", "consonant fricative palatal voiced"),
   ("x", "consonant fricative velar voiceless"),
   ("ɣ", "consonant fricative velar voiced"),
   ("χ", "consonant fricative uvular voiceless"),
   ("ʁ", "consonant fricative uvular voiced"),
   ("ħ", "consonant fricative pharyngeal voiceless"),
   ("ʕ", "consonant fricative pharyngeal voiced"),
   ("h", "consonant fricative glottal voiceless"),
   ("ɦ", "consonant fricative glottal voiced"),
   -- approximants
   ("ʋ", "consonant approximant labiodental voiced"),
   ("ɹ", "consonant approximant alveolar voiced"),
   ("ɻ", "consonant approximant retroflex voiced"),
   ("j", "consonant approximant palatal voiced"),
   ("ɰ", "consonant approximant velar voiced"),
   ("w", "consonant approximant labiovelar voiced"),
   -- laterals
   ("l", "consonant lateral alveolar voiced"),
   ("ɭ", "consonant lateral retroflex voiced"),
   ("ʎ", "consonant lateral palatal voiced"),
   ("ʟ", "consonant lateral velar voiced"),
   -- lateral fricatives
   ("ɬ", "consonant lateral_fricative alveolar voiceless"),
   ("ɮ", "consonant lateral_fricative alveolar voiced"),
   -- affricates
   ("ts", "consonant affricate alveolar voiceless"),
   ("dz", "consonant affricate alveolar voiced"),
   ("tʃ", "consonant affricate postalveolar voiceless"),
   ("dʒ", "consonant affricate postalveolar voiced"),
   ("tɕ", "consonant affricate alveolopalatal voiceless"),
   ("dʑ", "consonant affricate alveolopalatal voiced"),
   -- vowels
   ("i", "vowel close front unrounded"),
   ("y", "vowel close front rounded"),
   ("ɨ", "vowel close central unrounded"),
   ("ʉ", "vowel close central rounded"),
   ("ɯ", "vowel close back unrounded"),
   ("u", "vowel close back rounded"),
   ("ɪ", "vowel near_close front unrounded"),
   ("ʏ", "vowel near_close front rounded"),
   ("ʊ", "vowel near_close back rounded"),
   ("e", "vowel close_mid front unrounded"),
   ("ø", "vowel close_mid front rounded"),
   ("ɘ", "vowel close_mid central unrounded"),
   ("ɵ", "vowel close_mid central rounded"),
   ("ɤ", "vowel close_mid back unrounded"),
   ("o", "vowel close_mid back rounded"),
   ("ə", "vowel mid central unrounded"),
   ("ɛ", "vowel open_mid front unrounded"),
   ("œ", "vowel open_mid front rounded"),
   ("ɜ", "vowel open_mid central unrounded"),
   ("ɞ", "vowel open_mid central rounded"),
   ("ʌ", "vowel open_mid back unrounded"),
   ("ɔ", "vowel open_mid back rounded"),
   ("æ", "vowel near_open front unrounded"),
   ("ɐ", "vowel near_open central unrounded"),
   ("a", "vowel open front unrounded"),
   ("ɶ", "vowel open front rounded"),
   ("ä", "vowel open central unrounded"),
   ("ɑ", "vowel open back unrounded"),
   ("ɒ", "vowel open back rounded")]

/-- The model used where no other is given. -/
def builtIn : Model := ofList (symbols.map fun s => (s.1.toList, Text.words s.2.toList))

end Model
end SoundLaw
