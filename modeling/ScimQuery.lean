import ScimQuery.Attribute.Names
import ScimQuery.Attribute.Path
import ScimQuery.Attribute.Urn
import ScimQuery.Column
import ScimQuery.CommandLine
import ScimQuery.CommandLine.Misuse
import ScimQuery.CommandLine.ResourceFile
import ScimQuery.CommandLine.Run
import ScimQuery.CommandLine.Words
import ScimQuery.ErrorResponse
import ScimQuery.Field
import ScimQuery.Filter
import ScimQuery.Filter.Fault
import ScimQuery.Filter.Meaning
import ScimQuery.Filter.Parser
import ScimQuery.Json
import ScimQuery.Json.Reader
import ScimQuery.Json.Sameness
import ScimQuery.Json.Token
import ScimQuery.Json.Writer
import ScimQuery.Listing
import ScimQuery.Main
import ScimQuery.Number
import ScimQuery.Number.Double
import ScimQuery.Number.IntegerText
import ScimQuery.Number.Layout
import ScimQuery.Number.Numeral
import ScimQuery.Number.Shortest
import ScimQuery.PatchPath
import ScimQuery.Plan
import ScimQuery.Projection
import ScimQuery.Schema
import ScimQuery.SearchRequest
import ScimQuery.Session
import ScimQuery.Settings
import ScimQuery.Sorting
import ScimQuery.Store
import ScimQuery.Store.CellText
import ScimQuery.Store.Memory
import ScimQuery.Store.Table
import ScimQuery.Text.Blank
import ScimQuery.Text.Case
import ScimQuery.Text.CaseTable
import ScimQuery.Text.CodePoints
import ScimQuery.Text.Columns
import ScimQuery.Text.ControlSequence
import ScimQuery.Text.Digit
import ScimQuery.Text.Hex
import ScimQuery.Text.Pieces
import ScimQuery.Text.Printable
import ScimQuery.Text.Quoted
import ScimQuery.Text.Ruled
import ScimQuery.Text.Screen
import ScimQuery.Text.Similarity
import ScimQuery.Token
import ScimQuery.Token.Lexer
import ScimQuery.Proofs.Filter.Grammar
import ScimQuery.Proofs.Filter.Machine
import ScimQuery.Proofs.Attribute.Resolution
import ScimQuery.Proofs.Store.LookUp
import ScimQuery.Proofs.Listing.Page
import ScimQuery.Proofs.Token.Scanning
import ScimQuery.Proofs.Filter.Rendering
import ScimQuery.Proofs.Token.Lexemes
import ScimQuery.Proofs.Attribute.LetterCase
import ScimQuery.Proofs.Filter.LetterCase
import ScimQuery.Proofs.Attribute.Members
import ScimQuery.Proofs.Attribute.Names
import ScimQuery.Proofs.Projection.Address
import ScimQuery.Proofs.Projection.Splitting
import ScimQuery.Proofs.Projection.Complement
import ScimQuery.Proofs.Listing.Agreement
import ScimQuery.Proofs.Store.Agreement
import ScimQuery.Proofs.Listing.Walk
import ScimQuery.Proofs.Filter.Composition
import ScimQuery.Proofs.Json.Sameness
import ScimQuery.Proofs.Projection.Repetition
import ScimQuery.Proofs.Attribute.Routes
import ScimQuery.Proofs.Projection.Paths
import ScimQuery.Proofs.Projection.Reading
import ScimQuery.Proofs.Session.Isolation
import ScimQuery.Proofs.Session.Rows
import ScimQuery.Proofs.Session.Retrieval
import ScimQuery.Proofs.Filter.Texts
import ScimQuery.Proofs.PatchPath.Brackets
import ScimQuery.Proofs.PatchPath.ValuePath
import ScimQuery.Proofs.Number.Value
import ScimQuery.Proofs.Filter.Comparison
import ScimQuery.Proofs.Filter.Parts
import ScimQuery.Proofs.Session.Identifiers
import ScimQuery.Proofs.Listing.Sorting
import ScimQuery.Proofs.Filter.Refusals
import ScimQuery.Proofs.PatchPath.Texts
import ScimQuery.Proofs.PatchPath.Exactness
import ScimQuery.Proofs.PatchPath.Qualified
import ScimQuery.Proofs.Json.Order
import ScimQuery.Proofs.Projection.Monotony
import ScimQuery.Proofs.Attribute.Qualification
import ScimQuery.Proofs.Attribute.Stages
import ScimQuery.Proofs.Filter.Polarity
import ScimQuery.Proofs.Projection.Subobject
import ScimQuery.Proofs.Projection.Omission
