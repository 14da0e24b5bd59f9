import Corm.Types
import Corm.Pool.Model
import Corm.Pool.Accounting
import Corm.Pool.Wakeup
import Corm.Cache.Model
import Corm.Lib.Lru
import Corm.Cache.Refine
import Corm.Backend.Stmt
import Corm.Backend.SqliteStmt
import Corm.Backend.MysqlStmt
import Corm.Sql.Lex
import Corm.Sql.Param
import Corm.Sql.Where
import Corm.Sql.Stmt
import Corm.Builder
import Corm.Exec
import Corm.Reading.Basic
import Corm.Reading.Where
import Corm.Reading.Update
import Corm.Reading.Insert
import Corm.Dbms
import Corm.Reading.Chain
import Corm.Sql.Texts
import Corm.SoftDelete.Filter
import Corm.Reading.Number
import Corm.SoftDelete.Binding
import Corm.Create
import Corm.SoftDelete.History
import Corm.Sql.Touch
import Corm.Batch.Statement
import Corm.Batch.Confined
import Corm.Backend.SqliteValue
import Corm.Fetch
import Corm.Guard
import Corm.Backend.SqliteRecords
import Corm.Backend.SqliteRoundTrip
import Corm.Dialect.Agree
import Corm.Update.Order
import Corm.Batch.Insert
import Corm.Batch.Numbers
import Corm.Batch.OneByOne
import Corm.Batch.Atomic
import Corm.Memory.Pieces
import Corm.Memory.StrBuf
import Corm.Memory.Draft
import Corm.Memory.Safe
import Corm.Hooks.Protocol
import Corm.Migration.Model
import Corm.Migration.Complete
import Corm.Migration.Parts
import Corm.Migration.Whole
import Corm.Migration.Idempotent
import Corm.Placeholders.Literals
import Corm.Calls
import Corm.Placeholders.Select
import Corm.Reuse.Steps
import Corm.Placeholders.Balance
import Corm.Reuse.Reset
import Corm.Backend.SqliteSchema
import Corm.Cache.Shared
import Corm.Sql.Parts
import Corm.Sql.Weld
import Corm.Reading.Narrow
import Corm.Reuse.Reading
import Corm.Pool.Drain
import Corm.Batch.Last
import Corm.Core.Timing
import Corm.Core.Transaction
import Corm.Hooks.Written
import Corm.Reuse.Create
import Corm.Reuse.Record
import Corm.Select.Limit
import Corm.Select.Count
import Corm.Select.Mapping
import Corm.Migration.Indexes
import Corm.Core.Savepoint
import Corm.Core.Lifecycle
import Corm.Lib.Bytes
import Corm.Backend.PostgresParam
import Corm.Backend.Params
import Corm.Backend.MysqlResult
import Corm.SoftDelete.Twice
import Corm.Lib.Spans
import Corm.Quoting.Statements
import Corm.Quoting.Migrations
import Corm.Quoting.Traced
import Corm.Quoting.Calls
import Corm.Registry.Validate
import Corm.Lib.Cells
import Corm.Sql.Literal
import Corm.Backend.SqliteEscape
import Corm.Lib.Chained
import Corm.Registry.Models
import Corm.Memory.RawBuf
import Corm.Memory.Owned
import Corm.Lib.Strtol
import Corm.Lib.KeyValue
import Corm.Open.Dsn
import Corm.Open.Mysql
import Corm.Open.Postgres
import Corm.Backend.PostgresIds
import Corm.Lib.Refine
import Corm.Store.Spec
import Corm.Store.Records
import Corm.Backend.TypedTable
import Corm.Backend.PostgresTrip
import Corm.Backend.MysqlSimple
import Corm.Backend.MysqlTrip
import Corm.Pool.Progress
import Corm.Registry.Hash
import Corm.Memory.Results
import Corm.Memory.Queries
import Corm.Memory.Prepared
import Corm.Memory.Postgres
import Corm.Sql.Columns
import Corm.Migration.Typed
import Corm.Backend.Migrated
import Corm.Select.Readers
import Corm.Memory.Describe
import Corm.Migration.Described
