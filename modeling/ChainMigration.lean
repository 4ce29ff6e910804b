import ChainMigration.Block.Gap
import ChainMigration.Block.Heights
import ChainMigration.Block.Range
import ChainMigration.Block.RangeText
import ChainMigration.Chain.Address
import ChainMigration.Chain.Beneficiary
import ChainMigration.Chain.BlobKey
import ChainMigration.Chain.Codec
import ChainMigration.Chain.Log
import ChainMigration.Chain.TransactionValue
import ChainMigration.Cli.Arguments
import ChainMigration.Cli.Log
import ChainMigration.Cli.Options
import ChainMigration.Cli.Printed
import ChainMigration.Cli.Program
import ChainMigration.Config.Basic
import ChainMigration.Config.Document
import ChainMigration.Config.Overlay
import ChainMigration.Config.SslMode
import ChainMigration.Config.Validate
import ChainMigration.Database.Connection
import ChainMigration.Database.Endpoints
import ChainMigration.Database.Identifier
import ChainMigration.Database.Memory
import ChainMigration.Database.Place
import ChainMigration.Database.Reader
import ChainMigration.Database.Statement
import ChainMigration.Database.Writer
import ChainMigration.Digest.Keccak
import ChainMigration.Digest.Sha256
import ChainMigration.Engine.Act
import ChainMigration.Engine.Basic
import ChainMigration.Engine.PageCopy
import ChainMigration.Engine.Pool
import ChainMigration.Engine.Progress
import ChainMigration.Engine.Rehearsal
import ChainMigration.Engine.Schedule
import ChainMigration.Engine.Script
import ChainMigration.Engine.Step
import ChainMigration.Engine.Transfer
import ChainMigration.Engine.Work
import ChainMigration.Error
import ChainMigration.Files.GapFile
import ChainMigration.Files.Tree
import ChainMigration.Json.Pretty
import ChainMigration.Main
import ChainMigration.Policy
import ChainMigration.Proofs.AddressText
import ChainMigration.Proofs.ArrayTexts
import ChainMigration.Proofs.Base32
import ChainMigration.Proofs.Beneficiary
import ChainMigration.Proofs.BlobKeys
import ChainMigration.Proofs.CanonicalLogs
import ChainMigration.Proofs.Closing
import ChainMigration.Proofs.Composition
import ChainMigration.Proofs.ConfigDocument
import ChainMigration.Proofs.Conservation
import ChainMigration.Proofs.CopyHistory
import ChainMigration.Proofs.Decimal
import ChainMigration.Proofs.DelimitedNames
import ChainMigration.Proofs.Done
import ChainMigration.Proofs.EncodedLogs
import ChainMigration.Proofs.Except
import ChainMigration.Proofs.ExitStatus
import ChainMigration.Proofs.FailedStart
import ChainMigration.Proofs.FileTrees
import ChainMigration.Proofs.Fingerprint
import ChainMigration.Proofs.GapFileContents
import ChainMigration.Proofs.GapFiles
import ChainMigration.Proofs.GapRecords
import ChainMigration.Proofs.HeightChecks
import ChainMigration.Proofs.Heights
import ChainMigration.Proofs.HexText
import ChainMigration.Proofs.InsertColumns
import ChainMigration.Proofs.Items
import ChainMigration.Proofs.LiteralText
import ChainMigration.Proofs.LogColumns
import ChainMigration.Proofs.LogRepair
import ChainMigration.Proofs.MissingRuns
import ChainMigration.Proofs.NextEvent
import ChainMigration.Proofs.Outcome
import ChainMigration.Proofs.OverlaidSettings
import ChainMigration.Proofs.PageTransactions
import ChainMigration.Proofs.PageTransfer
import ChainMigration.Proofs.Paths
import ChainMigration.Proofs.PlainText
import ChainMigration.Proofs.PoolHistory
import ChainMigration.Proofs.PoolWork
import ChainMigration.Proofs.ProgramStatements
import ChainMigration.Proofs.QuotedText
import ChainMigration.Proofs.ReadItems
import ChainMigration.Proofs.Rehearsals
import ChainMigration.Proofs.RenderedDocuments
import ChainMigration.Proofs.RenderedLines
import ChainMigration.Proofs.Replay
import ChainMigration.Proofs.RowPlaces
import ChainMigration.Proofs.RunActs
import ChainMigration.Proofs.RunEnd
import ChainMigration.Proofs.RunHistory
import ChainMigration.Proofs.RunProgress
import ChainMigration.Proofs.Scanning
import ChainMigration.Proofs.SegmentSize
import ChainMigration.Proofs.Segments
import ChainMigration.Proofs.SeparateDatabases
import ChainMigration.Proofs.Settings
import ChainMigration.Proofs.Spellings
import ChainMigration.Proofs.SupplyCount
import ChainMigration.Proofs.TableLists
import ChainMigration.Proofs.TransactionValue
import ChainMigration.Proofs.TransferHistory
import ChainMigration.Proofs.Upgrade
import ChainMigration.Proofs.ValidConfig
import ChainMigration.Proofs.WrittenHex
import ChainMigration.Proofs.WrittenNodes
import ChainMigration.Report.Basic
import ChainMigration.Report.Document
import ChainMigration.Report.Time
import ChainMigration.Rlp.Header
import ChainMigration.Rlp.Item
import ChainMigration.Row.New
import ChainMigration.Row.Old
import ChainMigration.Row.Upgrade
import ChainMigration.Row.Value
import ChainMigration.Run.Migration
import ChainMigration.Run.Plan
import ChainMigration.Run.Schedule
import ChainMigration.Run.Transfer
import ChainMigration.Table.Catalog
import ChainMigration.Table.Name
import ChainMigration.Table.Query
import ChainMigration.Text.Base32
import ChainMigration.Text.Blank
import ChainMigration.Text.Decimal
import ChainMigration.Text.Hex
import ChainMigration.Text.LetterCase
import ChainMigration.Text.Lowercase
import ChainMigration.Text.Quoted
import ChainMigration.Text.Unshown
import ChainMigration.Total
import ChainMigration.Yaml.BlockScalar
import ChainMigration.Yaml.Char
import ChainMigration.Yaml.Composer
import ChainMigration.Yaml.Cursor
import ChainMigration.Yaml.Mark
import ChainMigration.Yaml.Node
import ChainMigration.Yaml.PlainScalar
import ChainMigration.Yaml.QuotedScalar
import ChainMigration.Yaml.Render
import ChainMigration.Yaml.Scalar
import ChainMigration.Yaml.Scanner
import ChainMigration.Yaml.Spacing
import ChainMigration.Yaml.Token
import ChainMigration.Yaml.Typed
