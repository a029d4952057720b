import ResolverContracts.Main
import ResolverContracts.Document.Names
import ResolverContracts.Proofs.Schema.Order
import ResolverContracts.Proofs.Document.Answers
import ResolverContracts.Proofs.Document.Marks
import ResolverContracts.Proofs.Contract.References
import ResolverContracts.Proofs.Contract.Failures
import ResolverContracts.Proofs.Contract.Leaves
import ResolverContracts.Proofs.Contract.Parts
import ResolverContracts.Proofs.Contract.Signatures
import ResolverContracts.Proofs.Contract.Closed
import ResolverContracts.Proofs.Contract.Imports
import ResolverContracts.Proofs.Contract.Discrimination
import ResolverContracts.Proofs.Schema.BareExtensions
import ResolverContracts.Proofs.Schema.Implementation
import ResolverContracts.Proofs.Contract.Inheritance
import ResolverContracts.Proofs.Contract.ObjectContracts
import ResolverContracts.Proofs.Contract.Replacement
import ResolverContracts.Proofs.Contract.Outline
import ResolverContracts.Proofs.Contract.Exports
import ResolverContracts.Proofs.Contract.Scopes
import ResolverContracts.Proofs.Contract.Agreement
import ResolverContracts.Proofs.Contract.Pieces
import ResolverContracts.Proofs.Contract.Uses
import ResolverContracts.Proofs.Contract.Resolved
import ResolverContracts.Proofs.Contract.TypeReader
import ResolverContracts.Proofs.Contract.Framing
import ResolverContracts.Proofs.Contract.Unambiguous
import ResolverContracts.Proofs.Contract.Expressions
import ResolverContracts.Proofs.Contract.InterfaceValues
import ResolverContracts.Proofs.Document.Layout
import ResolverContracts.Proofs.Document.Grammar
import ResolverContracts.Proofs.Document.Reads
import ResolverContracts.Proofs.Document.Unplaced
import ResolverContracts.Proofs.Document.PartsRead
import ResolverContracts.Proofs.Document.MembersRead
import ResolverContracts.Proofs.Document.RoundTrip
import ResolverContracts.Proofs.CommandLine.Files
import ResolverContracts.Proofs.CommandLine.Runs
import ResolverContracts.Proofs.Document.Scanned
import ResolverContracts.Proofs.Document.Accounts
import ResolverContracts.Proofs.Document.PartsAccounted
import ResolverContracts.Proofs.Document.DefinitionsAccounted
import ResolverContracts.Proofs.Document.EveryToken
import ResolverContracts.Proofs.Document.Moved
import ResolverContracts.Proofs.Document.Follows
import ResolverContracts.Proofs.Document.ReadersFollow
import ResolverContracts.Proofs.Document.Exchange
import ResolverContracts.Proofs.Document.Cuts
import ResolverContracts.Proofs.Schema.Moved
import ResolverContracts.Proofs.Schema.InsertedBlanks
import ResolverContracts.Proofs.Document.Closes
import ResolverContracts.Proofs.Document.DefinitionsClose
import ResolverContracts.Proofs.Document.Concatenation
import ResolverContracts.Proofs.Text.Words
import ResolverContracts.Proofs.Text.ScreamingSnake
import ResolverContracts.Proofs.Text.ByteOrder
import ResolverContracts.Proofs.Schema.EnumValues
import ResolverContracts.Proofs.Schema.NestedUnions
import ResolverContracts.Proofs.Contract.EnumMembers
import ResolverContracts.Proofs.Contract.EnumIdentifiers
import ResolverContracts.Proofs.Contract.UnionAliases
import ResolverContracts.Proofs.Contract.Specifiers
import ResolverContracts.Proofs.Contract.Collation
import ResolverContracts.Proofs.Contract.ImportOrder
import ResolverContracts.Proofs.Document.Tiling
import ResolverContracts.Proofs.Document.TokenKinds
import ResolverContracts.Proofs.Document.Advances
import ResolverContracts.Proofs.Document.ReadersAdvance
import ResolverContracts.Proofs.Document.Progress
import ResolverContracts.Proofs.Document.Extents
import ResolverContracts.Proofs.Document.Placed
import ResolverContracts.Proofs.Document.ReadersPlaced
import ResolverContracts.Proofs.Document.Spans
import ResolverContracts.Proofs.Text.Handles
import ResolverContracts.Proofs.Text.Cut
import ResolverContracts.Proofs.Text.PascalCase
import ResolverContracts.Proofs.Config.RoundTrip
import ResolverContracts.Proofs.Schema.Taken
import ResolverContracts.Proofs.Schema.Gathered
import ResolverContracts.Proofs.Schema.Registered
import ResolverContracts.Proofs.Schema.StoredOnce
import ResolverContracts.Proofs.Document.Braces
import ResolverContracts.Proofs.Document.ExecutableGrammar
import ResolverContracts.Proofs.Document.Lines
import ResolverContracts.Proofs.Document.Executables
