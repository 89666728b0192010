import Domarinn.Addresses
import Domarinn.Attribution
import Domarinn.Backfill
import Domarinn.BackfillSound
import Domarinn.BackfilledRows
import Domarinn.CacheBrowse
import Domarinn.CacheIndex
import Domarinn.CacheModes
import Domarinn.CachePruned
import Domarinn.CacheRetention
import Domarinn.CachedPartition
import Domarinn.CallHeaders
import Domarinn.CaseIdentity
import Domarinn.ChatCompletion
import Domarinn.ClientIp
import Domarinn.DeviceCookie
import Domarinn.DigestSalt
import Domarinn.DiskCache
import Domarinn.EmbeddedJson
import Domarinn.Entries
import Domarinn.EntryRuns
import Domarinn.ExitLadder
import Domarinn.Fallible
import Domarinn.FileTree
import Domarinn.GeneratedTests
import Domarinn.HeaderText
import Domarinn.HistoryWarning
import Domarinn.Ingest
import Domarinn.Ingested
import Domarinn.LayeredCache
import Domarinn.LoadSuite
import Domarinn.LocalTier
import Domarinn.LoginAttempts
import Domarinn.LoginPrune
import Domarinn.MatrixIds
import Domarinn.MatrixPages
import Domarinn.MatrixScan
import Domarinn.MatrixTotals
import Domarinn.McpFence
import Domarinn.McpSanitised
import Domarinn.MigrationProbe
import Domarinn.Noninterference
import Domarinn.Numerals
import Domarinn.Occurrences
import Domarinn.Provenance
import Domarinn.Purge
import Domarinn.Randint
import Domarinn.RateLimit
import Domarinn.RateLimiter
import Domarinn.ReadBack
import Domarinn.Redacted
import Domarinn.RefillBucket
import Domarinn.RemotePurge
import Domarinn.Replay
import Domarinn.ResolveChain
import Domarinn.Retention
import Domarinn.RetryBounds
import Domarinn.RunDiff
import Domarinn.RunDocument
import Domarinn.RunPages
import Domarinn.RunnerFallback
import Domarinn.Sandbox
import Domarinn.SetPolicy
import Domarinn.Setup
import Domarinn.ShortCircuit
import Domarinn.SingleUse
import Domarinn.TableTests
import Domarinn.TestsDigest
import Domarinn.ToolPairing
import Domarinn.ToolRoundTrip
import Domarinn.TrustedNets
import Domarinn.UnixPath
import Domarinn.Vacuity
import Domarinn.Validate
import Domarinn.WebCompare
import Domarinn.WriteGate
