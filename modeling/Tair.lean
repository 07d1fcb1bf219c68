import Tair.Client.Calls
import Tair.Client.TrimmedTables
import Tair.Cluster.HandOver
import Tair.Cluster.RestartedMigration
import Tair.ConfigServer.Completeness
import Tair.ConfigServer.UnsetLimits
import Tair.DataServer.DuplicatesDone
import Tair.DataServer.MigratedArea
import Tair.DataServer.MigrationSend
import Tair.DataServer.OnlyOwner
import Tair.DataServer.SameAnswer
import Tair.DataServer.WaitBalance
import Tair.Fdb.DataReader
import Tair.Fdb.FreeBlocks
import Tair.Kdb.Failures
import Tair.Kdb.Statistics
import Tair.Mdb.Addresses
import Tair.Mdb.PagePool
import Tair.Mdb.Quotas
import Tair.Mdb.Records
import Tair.Mdb.Scan
import Tair.Packets.Bounds
import Tair.Packets.Entries
import Tair.Rdb.FilterList
import Tair.Rdb.ScoreRange
import Tair.Rdb.SizeRefusals
import Tair.Remote.LocalQueue
