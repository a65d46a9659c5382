import SqlAssembly.Config.File
import SqlAssembly.Proofs.Query.Fold
import SqlAssembly.Proofs.Spelling
import SqlAssembly.Statement
import SqlAssembly.Value.Wire
import SqlAssembly.Proofs.Writing.Condition
import SqlAssembly.Proofs.Query.Scope
import SqlAssembly.Proofs.Writing.Select
import SqlAssembly.Proofs.Query.Rows
import SqlAssembly.Proofs.Writing.Statement
import SqlAssembly.Proofs.Dialects
import SqlAssembly.Proofs.Placeholders
import SqlAssembly.Proofs.InsertRows
import SqlAssembly.Proofs.LatestEntries
import SqlAssembly.Proofs.Traversal
import SqlAssembly.Proofs.BoundValues
import SqlAssembly.Proofs.Filters
import SqlAssembly.Proofs.RecordRows
import SqlAssembly.Proofs.BracketTree
import SqlAssembly.Proofs.Bindings
import SqlAssembly.Proofs.References
import SqlAssembly.Proofs.DelimitedText
import SqlAssembly.Proofs.JoinTables
import SqlAssembly.Proofs.UnionTrees
import SqlAssembly.Proofs.RectangularInserts
import SqlAssembly.Proofs.SetLists
import SqlAssembly.Proofs.RecordLookup
import SqlAssembly.Proofs.WellFormedNames
import SqlAssembly.Proofs.Cache.Clients
import SqlAssembly.Proofs.DialectChoice
import SqlAssembly.Proofs.InnerDialects
import SqlAssembly.Proofs.Clauses
import SqlAssembly.Proofs.Renaming.Drafts
import SqlAssembly.Proofs.Readings
import SqlAssembly.Proofs.InnerStatements
import SqlAssembly.Proofs.IlikeOperators
import SqlAssembly.Proofs.SourceNames
import SqlAssembly.Proofs.WellFormedSelects
import SqlAssembly.Proofs.CallOrder
import SqlAssembly.Proofs.RecordTargets
import SqlAssembly.Proofs.Wire.Denotation
import SqlAssembly.Proofs.GroupBalance
import SqlAssembly.Proofs.QuotedPaths
import SqlAssembly.Proofs.EmptyGroups
import SqlAssembly.Proofs.Wildcards
import SqlAssembly.Proofs.Cache.History
import SqlAssembly.Proofs.FieldAliases
import SqlAssembly.Proofs.JoinOperators
import SqlAssembly.Proofs.Casts
import SqlAssembly.Proofs.NamedSelects
import SqlAssembly.Proofs.Wire.IntegerArrays
import SqlAssembly.Proofs.RecordCalls
import SqlAssembly.Proofs.JsonValues
import SqlAssembly.Proofs.Pages
import SqlAssembly.Proofs.AppendedJoins
import SqlAssembly.Proofs.FreshAliases
import SqlAssembly.Proofs.Qualifiers
import SqlAssembly.Proofs.TranslatedNames
