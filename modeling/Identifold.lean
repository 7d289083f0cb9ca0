import Identifold.Checksum
import Identifold.Errors
import Identifold.Exchange
import Identifold.Exchange.Roundtrip
import Identifold.HexBytes
import Identifold.Json
import Identifold.JsonText
import Identifold.Lib.CheckDigit
import Identifold.Lib.Dialogue
import Identifold.Lib.Fibres
import Identifold.Lib.Holding
import Identifold.Lib.Interleaving
import Identifold.Lib.Ledger
import Identifold.Lib.Pattern
import Identifold.Lib.Radix
import Identifold.Lib.Rounding
import Identifold.Lib.Rows
import Identifold.Lib.Run
import Identifold.Lib.Script
import Identifold.Lib.Separated
import Identifold.MachineId
import Identifold.Ports.Agreement
import Identifold.Ports.CSharpCodec
import Identifold.Ports.ErrorCodes
import Identifold.Ports.GoCodec
import Identifold.Ports.MidGrammar
import Identifold.Ports.Normalize
import Identifold.Ports.NormalizerAgreement
import Identifold.Ports.Normalizers
import Identifold.Ports.OneNormalizer
import Identifold.Ports.PhpCodec
import Identifold.Ports.PublicIdCodec
import Identifold.Ports.PythonCodec
import Identifold.Ports.RustBytes
import Identifold.Ports.RustCodec
import Identifold.Ports.RustPanics
import Identifold.Ports.SequenceWriters
import Identifold.Ports.SequentialFormat
import Identifold.Ports.SwiftCodec
import Identifold.Ports.SwiftNormalizer
import Identifold.Ports.Writers
import Identifold.PublicId
import Identifold.Reference
import Identifold.Reference.Detection
import Identifold.Reference.Grammar
import Identifold.Reference.Permutation
import Identifold.Reference.Refusals
import Identifold.Reference.Roundtrip
import Identifold.Reference.Spelling
import Identifold.Reference.Unbiased
import Identifold.Registry
import Identifold.Service.Classifier
import Identifold.Service.Cli
import Identifold.Service.Create
import Identifold.Service.IdentityJson
import Identifold.Service.Inspection
import Identifold.Service.PostgresCreate
import Identifold.Service.PostgresRefinement
import Identifold.Service.Reservation
import Identifold.Service.Resolution
import Identifold.Storage.AdapterAgreement
import Identifold.Storage.JavaConnection
import Identifold.Storage.JavaRefinement
import Identifold.Storage.JavaTransactions
import Identifold.Storage.MySqlCollation
import Identifold.Storage.MySqlDelivery
import Identifold.Storage.MySqlIsolation
import Identifold.Storage.MySqlLaw
import Identifold.Storage.MySqlProcedure
import Identifold.Storage.MySqlRetry
import Identifold.Storage.MySqlWidth
import Identifold.Storage.PackageAllocation
import Identifold.Storage.PostgresAdapter
import Identifold.Storage.PostgresFunction
import Identifold.Storage.PostgresLinear
import Identifold.Storage.PostgresMigration
import Identifold.Storage.PostgresProgress
import Identifold.Storage.PostgresSessions
import Identifold.Storage.PostgresStorage
import Identifold.Storage.SequentialSplit
import Identifold.Storage.SharedSqlite
import Identifold.Storage.SqlStorage
import Identifold.Storage.Sqlite
import Identifold.Storage.SqliteClassification
import Identifold.Storage.SqliteConnection
import Identifold.Storage.SqliteLaw
import Identifold.Storage.SqliteLookup
import Identifold.Storage.SqlitePackages
import Identifold.Storage.SqlitePorts
import Identifold.Storage.SqliteSchema
import Identifold.Storage.SwiftAdapter
import Identifold.Storage.SwiftDurability
import Identifold.Storage.SwiftGate
import Identifold.Storage.Tables
import Identifold.Text
import Identifold.Utf8
