import RestTables.ApiError
import RestTables.Calendar.Date
import RestTables.Calendar.Instant
import RestTables.Calendar.Pattern
import RestTables.Calendar.Time
import RestTables.Catalog.Groups
import RestTables.Catalog.Reflect
import RestTables.Catalog.Table
import RestTables.Config.Basic
import RestTables.Config.Environment
import RestTables.Config.Error
import RestTables.Config.Reader
import RestTables.Digest.Sha256
import RestTables.Export.Csv
import RestTables.Export.Flatten
import RestTables.Http.EntityTag
import RestTables.Http.Header
import RestTables.Http.Link
import RestTables.Http.PathPattern
import RestTables.Http.Reply
import RestTables.Http.Request
import RestTables.Http.Target
import RestTables.Json.Basic
import RestTables.Json.Cursor
import RestTables.Json.Document
import RestTables.Json.Error
import RestTables.Json.Parser
import RestTables.Json.Printer
import RestTables.Json.Reader
import RestTables.Json.Skip
import RestTables.Model.Basic
import RestTables.Model.Description
import RestTables.Model.Field
import RestTables.Model.Record
import RestTables.Model.Relation
import RestTables.Number.Binary64
import RestTables.Number.Decimal
import RestTables.Number.Literal
import RestTables.Number.Power
import RestTables.Number.Shortest
import RestTables.OpenApi
import RestTables.Query.Arguments
import RestTables.Query.Compiler
import RestTables.Query.Grammar
import RestTables.Query.Page
import RestTables.Query.Payload
import RestTables.Query.Predicate
import RestTables.Registry.Basic
import RestTables.Registry.Build
import RestTables.Router
import RestTables.Rows.Condition
import RestTables.Rows.Page
import RestTables.Rows.Read
import RestTables.Rows.Related
import RestTables.Rows.Write
import RestTables.Service.Basic
import RestTables.Service.Read
import RestTables.Service.Write
import RestTables.Sql.Backend
import RestTables.Sql.Printer
import RestTables.Sql.Statement
import RestTables.Storage.Dialogue
import RestTables.Storage.Error
import RestTables.Storage.Script
import RestTables.Text.Affix
import RestTables.Text.Blank
import RestTables.Text.Case
import RestTables.Text.CaseProperty
import RestTables.Text.Form
import RestTables.Text.Hex
import RestTables.Text.Letter
import RestTables.Text.Quoted
import RestTables.Text.Split
import RestTables.Text.Utf8
import RestTables.Uuid
import RestTables.Value.Basic
import RestTables.Value.Coerce
import RestTables.Value.Kind
import RestTables.Value.Stored
import RestTables.Verb
import RestTables.Proofs.Sql.Engine
import RestTables.Proofs.Sql.Execution
import RestTables.Proofs.Storage.Exchange
import RestTables.Proofs.Storage.History
import RestTables.Proofs.Storage.World
import RestTables.Proofs.Model.Build
import RestTables.Proofs.Rows.Statements
import RestTables.Proofs.Http.EntityTag
import RestTables.Proofs.Service.Course
import RestTables.Proofs.Service.Precondition
import RestTables.Proofs.Service.KeyColumns
import RestTables.Proofs.Json.Members
import RestTables.Proofs.Service.Nulls
import RestTables.Proofs.Value.Coerce
import RestTables.Proofs.Calendar.Text
import RestTables.Proofs.Value.KeyText
import RestTables.Proofs.Calendar.Reading
import RestTables.Proofs.Value.RoundTrip
import RestTables.Proofs.Query.Compiled
import RestTables.Proofs.Query.Operands
import RestTables.Proofs.Query.Meaning
import RestTables.Proofs.Rows.Condition
import RestTables.Proofs.Rows.Resolution
import RestTables.Proofs.Storage.Only
import RestTables.Proofs.Storage.Answers
import RestTables.Proofs.Service.Statements
import RestTables.Proofs.Router.Statements
import RestTables.Proofs.Registry.Labels
import RestTables.Proofs.Registry.Names
import RestTables.Proofs.Registry.Reach
import RestTables.Proofs.Registry.Origin
import RestTables.Proofs.Registry.References
import RestTables.Proofs.Router.ReadOnly
import RestTables.Proofs.Text.Split
import RestTables.Proofs.Http.TagList
import RestTables.Proofs.Query.Languages
import RestTables.Proofs.Sql.Mentions
import RestTables.Proofs.Rows.Mentions
import RestTables.Proofs.Service.Mentions
import RestTables.Proofs.Router.Names
import RestTables.Proofs.Text.Utf8
import RestTables.Proofs.Text.Case
import RestTables.Proofs.Text.Form
import RestTables.Proofs.Number.Literal
import RestTables.Proofs.Query.Page
import RestTables.Proofs.Rows.Page
import RestTables.Proofs.Rows.Related
import RestTables.Proofs.Http.Link
import RestTables.Proofs.Service.List
import RestTables.Proofs.Service.Walk
import RestTables.Proofs.Query.Parts
import RestTables.Proofs.Query.Conservation
import RestTables.Proofs.Sql.Order
import RestTables.Proofs.Rows.Listing
import RestTables.Proofs.Service.Restriction
import RestTables.Proofs.Number.Binary64
import RestTables.Proofs.Number.Decimal
import RestTables.Proofs.Rows.Matching
import RestTables.Proofs.Service.Retry
import RestTables.Proofs.Rows.Alone
import RestTables.Proofs.Service.Item
import RestTables.Proofs.Rows.Shown
import RestTables.Proofs.Rows.SentBack
import RestTables.Proofs.Rows.Alike
import RestTables.Proofs.Service.Tags
import RestTables.Proofs.Service.Stale
import RestTables.Proofs.Http.PathPart
import RestTables.Proofs.Http.PathPattern
import RestTables.Proofs.Router.SelfLinks
import RestTables.Proofs.Router.Collections
import RestTables.Proofs.Number.Shortest
import RestTables.Proofs.Number.Written
import RestTables.Proofs.Json.Text
import RestTables.Proofs.Service.Repeat
import RestTables.Proofs.Registry.Closure
import RestTables.Proofs.Registry.Start
import RestTables.Proofs.Storage.Failure
import RestTables.Proofs.Service.Failure
import RestTables.Proofs.Router.Failure
import RestTables.Proofs.Service.PastEnd
import RestTables.Proofs.Service.Assignment
import RestTables.Proofs.Service.ReadBack
import RestTables.Proofs.Sql.Collation
import RestTables.Proofs.Rows.Sorting
import RestTables.Proofs.Query.Expansion
import RestTables.Proofs.Rows.Negation
import RestTables.Proofs.Export.Flatten
import RestTables.Proofs.Export.Record
import RestTables.Proofs.Sql.Naming
import RestTables.Proofs.Rows.Correlation
import RestTables.Proofs.Catalog.Groups
import RestTables.Proofs.Catalog.Reflection
import RestTables.Proofs.Catalog.ForeignKeys
import RestTables.Proofs.Service.Onward
import RestTables.Proofs.Registry.Overlay
import RestTables.Proofs.Model.Payload
import RestTables.Proofs.Export.Product
import RestTables.Proofs.Export.Csv
import RestTables.Proofs.Rows.Search
