import ResourceQuery.Collection.Memory
import ResourceQuery.Collection.Recorder
import ResourceQuery.Query.Session
import ResourceQuery.Rules.Builder
import ResourceQuery.Rules.Registration
import ResourceQuery.Rules.Script
import ResourceQuery.Sql.Sample
import ResourceQuery.Sql.TableQuery
import ResourceQuery.Proofs.Pagination.Partition
import ResourceQuery.Proofs.Pagination.Countless
import ResourceQuery.Proofs.Pagination.Traversal
import ResourceQuery.Proofs.Query.Meaning
import ResourceQuery.Proofs.Sql.Agreement
import ResourceQuery.Proofs.Request.QueryDecoding
import ResourceQuery.Proofs.Number.DoubleRange
import ResourceQuery.Proofs.Pagination.Links
import ResourceQuery.Proofs.Sql.JoinInvariant
import ResourceQuery.Proofs.Sql.TextOfCalls
import ResourceQuery.Proofs.Sql.LoadedPaths
import ResourceQuery.Proofs.Collection.CallOrder
import ResourceQuery.Proofs.Rules.Declared
import ResourceQuery.Proofs.Rules.Table
import ResourceQuery.Proofs.Query.FilterParameters
import ResourceQuery.Proofs.Query.SortSteps
import ResourceQuery.Proofs.Query.StorageOrder
import ResourceQuery.Proofs.Pagination.Refusals
import ResourceQuery.Proofs.Query.Outcome
import ResourceQuery.Proofs.Pagination.FilterLinks
import ResourceQuery.Proofs.Pagination.Flat
import ResourceQuery.Proofs.Query.Misnaming
import ResourceQuery.Proofs.Sql.ToOneJoins
import ResourceQuery.Proofs.Collection.LexicographicOrder
import ResourceQuery.Proofs.Request.SiblingOrder
import ResourceQuery.Proofs.Pagination.PageCount
import ResourceQuery.Proofs.Query.Guards
import ResourceQuery.Proofs.Request.SortTokens
import ResourceQuery.Proofs.Rules.OrderSpelling
import ResourceQuery.Proofs.Rules.TieBreaks
import ResourceQuery.Proofs.Query.FirstMatch
import ResourceQuery.Proofs.Query.CheckNames
import ResourceQuery.Proofs.Query.RememberedDetails
import ResourceQuery.Proofs.Sql.SpecReading
