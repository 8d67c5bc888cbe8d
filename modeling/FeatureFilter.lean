import FeatureFilter.Main
import FeatureFilter.Proofs.Filter.Induction
import FeatureFilter.Proofs.Filter.Parts
import FeatureFilter.Proofs.Sql.Marks
import FeatureFilter.Proofs.Sql.Outline
import FeatureFilter.Proofs.Sql.Faults
import FeatureFilter.Proofs.Sql.Rendering
import FeatureFilter.Proofs.Sql.Alike
import FeatureFilter.Proofs.Sql.QuotedNames
import FeatureFilter.Proofs.Sql.Spacing
import FeatureFilter.Proofs.Sql.Vocabulary
import FeatureFilter.Proofs.Sql.Provenance
import FeatureFilter.Proofs.Sql.Placeholders
import FeatureFilter.Proofs.Sql.Readback
import FeatureFilter.Proofs.Sql.Disclosure
import FeatureFilter.Proofs.Sql.Acceptance
import FeatureFilter.Proofs.Sql.Forbidden
import FeatureFilter.Proofs.Grammar.Scanning
import FeatureFilter.Proofs.Grammar.Derivation
import FeatureFilter.Proofs.Grammar.Adequacy
import FeatureFilter.Proofs.Grammar.Level
import FeatureFilter.Proofs.Grammar.Brackets
import FeatureFilter.Proofs.Grammar.Cql2
import FeatureFilter.Proofs.Filter.Places
import FeatureFilter.Proofs.Filter.Wrapping
import FeatureFilter.Proofs.Json.Strings
import FeatureFilter.Proofs.Collection.Mapping
import FeatureFilter.Proofs.Grammar.Trees
import FeatureFilter.Proofs.Grammar.Words
import FeatureFilter.Proofs.Filter.Layers
import FeatureFilter.Proofs.Filter.Shapes
import FeatureFilter.Proofs.Filter.Precedence
import FeatureFilter.Proofs.Filter.Numerals
import FeatureFilter.Proofs.Filter.Quoting
import FeatureFilter.Proofs.Time.Written
import FeatureFilter.Proofs.Grammar.Tokens
import FeatureFilter.Proofs.Filter.GeometryText
import FeatureFilter.Proofs.Filter.Printing
import FeatureFilter.Proofs.Filter.PrimaryText
import FeatureFilter.Proofs.Filter.TextReadback
import FeatureFilter.Proofs.Sql.Placeless
import FeatureFilter.Proofs.Filter.JsonReadback
import FeatureFilter.Proofs.Dictionary
import FeatureFilter.Proofs.Text.ByteOrder
import FeatureFilter.Proofs.Json.Layouts
import FeatureFilter.Proofs.Json.TypedReadback
import FeatureFilter.Proofs.Collection.Documents
import FeatureFilter.Proofs.Collection.Registered
import FeatureFilter.Proofs.Collection.Reloading
import FeatureFilter.Proofs.Grammar.Runs
import FeatureFilter.Proofs.Grammar.Rewriting
import FeatureFilter.Proofs.Filter.Changes
import FeatureFilter.Proofs.Grammar.CaseFolding
import FeatureFilter.Proofs.Filter.CaseBlind
import FeatureFilter.Proofs.Filter.Blanks
import FeatureFilter.Proofs.Grammar.Visits
import FeatureFilter.Proofs.Filter.Failures
import FeatureFilter.Proofs.Filter.Diagnosis
import FeatureFilter.Proofs.Sql.TextRejections
import FeatureFilter.Proofs.Filter.EncodingReadback
import FeatureFilter.Proofs.Command.Arguments
import FeatureFilter.Proofs.Command.Agreement
import FeatureFilter.Proofs.Sql.Framing
import FeatureFilter.Proofs.Sql.OuterParentheses
import FeatureFilter.Proofs.Sql.OperandOrder
import FeatureFilter.Proofs.Filter.BareNames
import FeatureFilter.Proofs.Sql.IntegerParameters
import FeatureFilter.Proofs.Sql.NestingLimit
import FeatureFilter.Proofs.Filter.WktReadback
import FeatureFilter.Proofs.Text.Positions
import FeatureFilter.Proofs.Filter.LoneWords
import FeatureFilter.Proofs.Filter.JsonPlaces
import FeatureFilter.Proofs.Filter.Spans
import FeatureFilter.Proofs.Sql.StringParameters
import FeatureFilter.Proofs.Filter.TemporalLiterals
