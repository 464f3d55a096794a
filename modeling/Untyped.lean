import Untyped.Machine.Program
import Untyped.Proofs.Binary.Magnitude
import Untyped.Proofs.Value.Formula
import Untyped.Proofs.Value.Load
import Untyped.Proofs.Value.Located
import Untyped.Proofs.Value.Reload
import Untyped.Value.Native
import Untyped.Proofs.Binary.Nearest
import Untyped.Proofs.Value.Normal
import Untyped.Proofs.Decimal.Shortest
import Untyped.Proofs.Value.Native
import Untyped.Proofs.Decimal.Layout
import Untyped.Proofs.Value.Branch
import Untyped.Proofs.Binary.Closeness
import Untyped.Proofs.Json.Scaling
import Untyped.Proofs.Json.Literal
import Untyped.Proofs.Value.Drift
import Untyped.Proofs.Value.Layouts
import Untyped.Proofs.Value.Joined
import Untyped.Proofs.Value.Canonical
import Untyped.Proofs.Machine.History
import Untyped.Proofs.Machine.Identity
import Untyped.Proofs.Decimal.Grid
import Untyped.Proofs.Json.Denotation
import Untyped.Proofs.Value.Widened
import Untyped.Proofs.Value.Numerals
import Untyped.Proofs.Decimal.Midpoints
import Untyped.Proofs.Value.Narrowed
import Untyped.Proofs.Json.Injective
import Untyped.Proofs.Value.Distinct
import Untyped.Proofs.Value.Spelled
import Untyped.Proofs.Json.Places
import Untyped.Proofs.Json.Integers
import Untyped.Proofs.Value.Integers
import Untyped.Proofs.Json.Exponents
import Untyped.Proofs.Value.Constants
import Untyped.Proofs.Json.Dropped
import Untyped.Proofs.Json.Underflow
import Untyped.Proofs.Value.Falsity
import Untyped.Proofs.Value.Yielded
import Untyped.Proofs.Value.Grouping
import Untyped.Proofs.Json.Overflow
import Untyped.Proofs.Value.Accuracy
import Untyped.Proofs.Value.Finite
import Untyped.Proofs.Json.Inside
import Untyped.Proofs.Value.Padded
import Untyped.Proofs.Value.Listed
import Untyped.Proofs.Value.Whole
import Untyped.Proofs.Text.Quoted
import Untyped.Proofs.Value.Dumped
import Untyped.Proofs.Value.Nonzero
import Untyped.Proofs.Json.Unspaced
import Untyped.Proofs.Value.Lines
