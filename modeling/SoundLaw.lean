import SoundLaw.Main
import SoundLaw.Proofs.Sorting
import SoundLaw.Proofs.Counting
import SoundLaw.Proofs.Phonology.Token
import SoundLaw.Proofs.Phonology.Model
import SoundLaw.Proofs.Phonology.Printing
import SoundLaw.Proofs.Phonology.Nearest
import SoundLaw.Proofs.Regex.Reading
import SoundLaw.Proofs.Regex.Words
import SoundLaw.Proofs.Regex.Brackets
import SoundLaw.Proofs.Regex.Ensures
import SoundLaw.Proofs.Regex.Leaves
import SoundLaw.Proofs.Regex.Balance
import SoundLaw.Proofs.Regex.Conditions
import SoundLaw.Proofs.Regex.Rewriting
import SoundLaw.Proofs.Rule.Pattern
import SoundLaw.Proofs.Rule.PlainContext
import SoundLaw.Proofs.Rule.Pair
import SoundLaw.Proofs.Rule.Scan
import SoundLaw.Proofs.Rule.LiteralTargets
import SoundLaw.Proofs.Rule.Tokens
import SoundLaw.Proofs.Rule.Trace
import SoundLaw.Proofs.Rule.Moves
import SoundLaw.Proofs.Rule.Simultaneous
import SoundLaw.Proofs.Schema.Check
import SoundLaw.Proofs.Rule.Schema
import SoundLaw.Proofs.Rule.Record
import SoundLaw.Proofs.Text.Digits
import SoundLaw.Proofs.Text.Pieces
import SoundLaw.Proofs.Json.Reading
import SoundLaw.Proofs.Json.Indented
import SoundLaw.Proofs.Rule.Document
import SoundLaw.Proofs.Store.Basic
import SoundLaw.Proofs.Store.Saving
import SoundLaw.Proofs.Store.Loading
import SoundLaw.Proofs.Similarity.Order
import SoundLaw.Proofs.Similarity.Search
import SoundLaw.Proofs.Journal
import SoundLaw.Proofs.Rule.Composition
import SoundLaw.Proofs.Rule.Batch
import SoundLaw.Proofs.Rule.Deletion
import SoundLaw.Proofs.Phonology.Index
import SoundLaw.Proofs.Phonology.Segmentation
import SoundLaw.Proofs.Similarity.Alignment
import SoundLaw.Proofs.Similarity.Measuring
import SoundLaw.Proofs.Similarity.Likeness
import SoundLaw.Proofs.Similarity.Guarded
import SoundLaw.Proofs.Similarity.Normed
import SoundLaw.Proofs.Similarity.Exact
import SoundLaw.Proofs.Rule.Attempts
import SoundLaw.Proofs.Phonology.Hits
import SoundLaw.Proofs.Rule.Expansion
import SoundLaw.Proofs.Rule.Edge
import SoundLaw.Proofs.Rule.Veto
import SoundLaw.Proofs.Schema.Collecting
import SoundLaw.Proofs.Rule.Records
import SoundLaw.Proofs.Rule.Unnamed
import SoundLaw.Proofs.Phonology.Notation
import SoundLaw.Proofs.Rule.Story
import SoundLaw.Proofs.Timing
import SoundLaw.Proofs.Schema.Problems
import SoundLaw.Proofs.Rule.Nameless
import SoundLaw.Proofs.Store.Documents
import SoundLaw.Proofs.Store.Reading
