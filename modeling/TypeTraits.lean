import TypeTraits.Main
import TypeTraits.Proofs.Catalog.Partition
import TypeTraits.Proofs.Decision
import TypeTraits.Proofs.Decision.Nested
import TypeTraits.Proofs.Descriptor.Requalified
import TypeTraits.Proofs.Diagnostic.InText
import TypeTraits.Proofs.Manifest
import TypeTraits.Proofs.Query.Composition
import TypeTraits.Proofs.Query.DeMorgan
import TypeTraits.Proofs.Query.Exact
import TypeTraits.Proofs.Query.Growth
import TypeTraits.Proofs.Query.Kinds
import TypeTraits.Proofs.Query.Layout
import TypeTraits.Proofs.Query.Progress
import TypeTraits.Proofs.Query.Unreached
import TypeTraits.Proofs.Report
import TypeTraits.Proofs.Selector
import TypeTraits.Proofs.Session
import TypeTraits.Proofs.Token.Alphabet
import TypeTraits.Proofs.TypeId.WordOrder
import TypeTraits.Proofs.Universe.Calls
import TypeTraits.Proofs.Universe.Collapse
import TypeTraits.Proofs.Universe.Steps
