import DbmlRestore.Main
import DbmlRestore.World
import DbmlRestore.Proofs.Block.Emission
import DbmlRestore.Proofs.Block.Lossless
import DbmlRestore.Proofs.Block.Order
import DbmlRestore.Proofs.Block.Ranks
import DbmlRestore.Proofs.Block.Tables
import DbmlRestore.Proofs.Block.Tidied
import DbmlRestore.Proofs.Cli.Encoding
import DbmlRestore.Proofs.Cli.Steps
import DbmlRestore.Proofs.Comment.Buckets
import DbmlRestore.Proofs.Comment.Emitted
import DbmlRestore.Proofs.Comment.Fields
import DbmlRestore.Proofs.Comment.Opaque
import DbmlRestore.Proofs.Comment.Recording
import DbmlRestore.Proofs.Comment.Shape
import DbmlRestore.Proofs.Comment.SourceOrder
import DbmlRestore.Proofs.Comment.Tables
import DbmlRestore.Proofs.Comment.Undoing
import DbmlRestore.Proofs.Document.Crlf
import DbmlRestore.Proofs.Document.Restoration
import DbmlRestore.Proofs.Errors
import DbmlRestore.Proofs.Line.HeaderGrammar
import DbmlRestore.Proofs.Snapshot.Schema
import DbmlRestore.Proofs.Snapshot.Twice
import DbmlRestore.Proofs.Snapshot.UpToDate
import DbmlRestore.Proofs.Snapshot.Wire
import DbmlRestore.Proofs.TableScan.Runs
