import InpxWebReader.Library.Program
import InpxWebReader.Library.Table
import InpxWebReader.Library.Runs
import InpxWebReader.Library.Sorting
import InpxWebReader.Foundation.Text
import InpxWebReader.Foundation.Unicode
import InpxWebReader.Foundation.Exception
import InpxWebReader.Foundation.Sha256
import InpxWebReader.Domain.Metadata
import InpxWebReader.Domain.SearchQuery
import InpxWebReader.Inpx.Record
import InpxWebReader.Storage.CacheLayout
import InpxWebReader.Database.Schema
import InpxWebReader.Database.SearchIndex
import InpxWebReader.Library.Dedup
import InpxWebReader.Database.Relations
import InpxWebReader.Database.SearchDrift
import InpxWebReader.Storage.CoverStore
import InpxWebReader.Database.Statistics
import InpxWebReader.Database.CoverCounts
import InpxWebReader.Database.Locations
import InpxWebReader.Database.Catalog
import InpxWebReader.Database.View
import InpxWebReader.Scan.Limits
import InpxWebReader.Scan.Progress
import InpxWebReader.Scan.ArchiveRootIndex
import InpxWebReader.Scan.Environment
import InpxWebReader.Scan.Planning
import InpxWebReader.Scan.PlanningSpec
import InpxWebReader.Scan.Writer
import InpxWebReader.Scan.RunScan
import InpxWebReader.Scan.Cancellation
import InpxWebReader.Scan.WriterSpec
import InpxWebReader.Scan.ExecutionSpec
import InpxWebReader.Scan.FinishSpec
import InpxWebReader.Scan.RunSpec
import InpxWebReader.Scan.Reading
import InpxWebReader.Scan.History
import InpxWebReader.Scan.Mirror
import InpxWebReader.Scan.DrainOrder
import InpxWebReader.Scan.JobService
import InpxWebReader.Scan.JobLifecycle
import InpxWebReader.Query.SessionStore
import InpxWebReader.Query.SessionRuns
import InpxWebReader.Query.SessionAccounting
import InpxWebReader.Query.Search
import InpxWebReader.Query.SearchSpec
import InpxWebReader.Query.SearchPage
import InpxWebReader.Query.SessionContents
import InpxWebReader.Query.PageSpec
import InpxWebReader.Query.Generations
import InpxWebReader.Query.Obsolete
import InpxWebReader.Query.LiveSessions
import InpxWebReader.Query.Pagination
import InpxWebReader.Query.Facets
import InpxWebReader.Server.Base64Url
import InpxWebReader.Server.BookListCursor
import InpxWebReader.Server.BookListRequest
import InpxWebReader.Web.BookListPath
import InpxWebReader.Library.TaskLane
import InpxWebReader.Server.HttpTaskQueue
import InpxWebReader.Server.BackendExecutor
import InpxWebReader.Server.ServerApplicationHost
import InpxWebReader.App.Host
import InpxWebReader.App.FileReplacement
import InpxWebReader.Foundation.Utf8
import InpxWebReader.Library.Blocks
import InpxWebReader.Foundation.TextConversion
import InpxWebReader.Foundation.LegacyEncoding
import InpxWebReader.Inpx.Parser
import InpxWebReader.Inpx.TextValidity
import InpxWebReader.Inpx.RoundTrip
import InpxWebReader.Inpx.Accounting
import InpxWebReader.Scan.RecordCounts
import InpxWebReader.Parsing.CoverBase64
import InpxWebReader.Foundation.CodePoints
import InpxWebReader.Library.Checkpoints
import InpxWebReader.Foundation.TruncatedUtf8
import InpxWebReader.Inpx.ChunkedText
import InpxWebReader.Domain.NormalizedText
import InpxWebReader.Domain.CaseFolding
import InpxWebReader.Domain.CanonicalText
import InpxWebReader.Library.Fenwick
import InpxWebReader.Server.RequestedRanges
import InpxWebReader.Query.Refusals
import InpxWebReader.Parsing.Fb2Text
import InpxWebReader.Parsing.ByteOrderMarks
import InpxWebReader.Parsing.XmlTags
import InpxWebReader.Parsing.XmlShape
import InpxWebReader.Library.Frame
import InpxWebReader.Library.InFlight
import InpxWebReader.Scan.SourceRow
import InpxWebReader.Scan.Watch
import InpxWebReader.Scan.Scheduling
import InpxWebReader.Scan.ProgressCounts
import InpxWebReader.App.MemoryBudgets
import InpxWebReader.App.ArchiveAccess
import InpxWebReader.App.DownloadBinding
import InpxWebReader.Foundation.FilenamePolicy
import InpxWebReader.Server.LogField
import InpxWebReader.Server.ScanCoordinator
import InpxWebReader.Library.LexicalPath
import InpxWebReader.Storage.CacheRoot
import InpxWebReader.Library.FileTree
import InpxWebReader.Storage.ArchiveWalk
import InpxWebReader.Scan.ArchiveResolution
import InpxWebReader.Scan.ArchiveLookup
import InpxWebReader.Library.Disk
import InpxWebReader.Converter.ExternalBookConverter
import InpxWebReader.Converter.Publication
import InpxWebReader.Library.MixedRadix
import InpxWebReader.Library.Calendar
import InpxWebReader.Database.SqliteTimePoint
import InpxWebReader.Library.Scanning
import InpxWebReader.Parsing.TagScan
import InpxWebReader.System.Library
import InpxWebReader.Library.Chunks
import InpxWebReader.Web.CatalogPages
import InpxWebReader.Web.CursorBookPages
import InpxWebReader.App.SourceState
import InpxWebReader.Web.ServerPages
import InpxWebReader.System.Browsing
import InpxWebReader.Library.PercentCoding
import InpxWebReader.Server.DownloadName
import InpxWebReader.Web.DownloadName
import InpxWebReader.Server.HttpRequests
import InpxWebReader.Server.ServedFiles
import InpxWebReader.Server.HttpService
import InpxWebReader.Library.Parties
import InpxWebReader.Server.HttpDownloads
import InpxWebReader.Server.HttpGuard
