import DocShape.Main
import DocShape.Schema.Describe
import DocShape.Proofs.Answers
import DocShape.Proofs.Conformance
import DocShape.Proofs.DefinitionRoundTrip
import DocShape.Proofs.CheckCommand
import DocShape.Proofs.SameOutcome
import DocShape.Proofs.Revision
import DocShape.Proofs.Samples
import DocShape.Proofs.Grammar
import DocShape.Proofs.EntryForms
import DocShape.Proofs.RootKey
import DocShape.Proofs.Strictness
import DocShape.Proofs.Idempotence
import DocShape.Proofs.EmptyObjects
import DocShape.Proofs.DeclarationOrder
import DocShape.Proofs.Nesting
import DocShape.Proofs.Concatenation
import DocShape.Proofs.PathText
import DocShape.Proofs.Inspection
import DocShape.Proofs.ListedRows
import DocShape.Proofs.ListedSchema
import DocShape.Proofs.MemberOrder
import DocShape.Proofs.InsertionOrder
import DocShape.Proofs.Registrations
import DocShape.Proofs.OptionsText
