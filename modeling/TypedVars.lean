import TypedVars.Main
import TypedVars.Proofs.Condition.Chain
import TypedVars.Proofs.Condition.Truth
import TypedVars.Proofs.Text.Division
import TypedVars.Proofs.Text.Words
import TypedVars.Proofs.Condition.RoundTrip
import TypedVars.Proofs.Number.Numeral
import TypedVars.Proofs.Resolution.Integers
import TypedVars.Proofs.Text.Spacing
import TypedVars.Proofs.Arithmetic.Operand
import TypedVars.Proofs.Arithmetic.Triple
import TypedVars.Proofs.Number.Written
import TypedVars.Proofs.Resolution.Stability
import TypedVars.Proofs.Store.Run
import TypedVars.Proofs.Substitution.Expansion
import TypedVars.Proofs.Text.Occurrence
import TypedVars.Proofs.Number.Truncation
import TypedVars.Proofs.Resolution.Agreement
import TypedVars.Proofs.Resolution.Spacing
import TypedVars.Proofs.Substitution.Absence
import TypedVars.Proofs.Store.Change
import TypedVars.Proofs.Text.Placement
import TypedVars.Proofs.Text.Resplitting
import TypedVars.Proofs.Yaml.Runs
import TypedVars.Proofs.Yaml.Meaning
import TypedVars.Proofs.Yaml.Location
import TypedVars.Proofs.Schema.Definition
import TypedVars.Proofs.Schema.Document
import TypedVars.Proofs.Text.Printable
import TypedVars.Proofs.Yaml.Scalar
import TypedVars.Proofs.Yaml.Flow
import TypedVars.Proofs.Yaml.Growth
import TypedVars.Proofs.Schema.RoundTrip
import TypedVars.Proofs.Condition.Extent
import TypedVars.Proofs.Condition.Strictness
import TypedVars.Proofs.Condition.Reassociation
import TypedVars.Proofs.Condition.Gluing
import TypedVars.Proofs.Resolution.Detection
import TypedVars.Proofs.Text.Encoding
import TypedVars.Proofs.Condition.Comparison
import TypedVars.Proofs.Number.Positional
import TypedVars.Proofs.Condition.Decimals
import TypedVars.Proofs.Number.Value
import TypedVars.Proofs.Number.Conversion
import TypedVars.Proofs.Resolution.Formatting
import TypedVars.Proofs.Number.Nearest
import TypedVars.Proofs.Number.Reading
import TypedVars.Proofs.Number.Shortest
import TypedVars.Proofs.Number.FewestDigits
import TypedVars.Proofs.Number.RoundTrip
import TypedVars.Proofs.Resolution.Doubles
import TypedVars.Proofs.Resolution.FewestDigits
import TypedVars.Proofs.Substitution.Occurrences
