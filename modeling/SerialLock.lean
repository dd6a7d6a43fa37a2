import SerialLock.CommandLine.Basic
import SerialLock.CommandLine.Read
import SerialLock.Decimal.Binary64
import SerialLock.Decimal.Shortest
import SerialLock.Failure
import SerialLock.Fault.Basic
import SerialLock.Fault.Texts
import SerialLock.FileTree.Basic
import SerialLock.FileTree.Change
import SerialLock.FileTree.Resolve
import SerialLock.FileTree.Standard
import SerialLock.Host
import SerialLock.Json
import SerialLock.Liveness
import SerialLock.LockFile
import SerialLock.Log.Basic
import SerialLock.Log.Filter
import SerialLock.Machine
import SerialLock.Path
import SerialLock.Pid
import SerialLock.Process
import SerialLock.Program
import SerialLock.Run
import SerialLock.Settings.Basic
import SerialLock.Settings.Read
import SerialLock.Settings.Resolve
import SerialLock.Settings.Write
import SerialLock.Status
import SerialLock.Text.Blank
import SerialLock.Text.Quoted
import SerialLock.Text.Unshown
import SerialLock.Text.Utf8
import SerialLock.Yaml.Malformed
import SerialLock.Yaml.Node.Basic
import SerialLock.Yaml.Node.Read
import SerialLock.Yaml.Scalar
import SerialLock.Yaml.Source
import SerialLock.Yaml.Token.Basic
import SerialLock.Yaml.Token.Property
import SerialLock.Yaml.Token.Read
import SerialLock.Yaml.Value
import SerialLock.Yaml.Written
import SerialLock.Main
import SerialLock.Proofs.Results
import SerialLock.Proofs.FileTree.Follow
import SerialLock.Proofs.Attempt
import SerialLock.Proofs.FileTree.Erase
import SerialLock.Proofs.Liveness
import SerialLock.Proofs.Liveness.Histories
import SerialLock.Proofs.LockFile.Owner
import SerialLock.Proofs.Status.Inspect
import SerialLock.Proofs.Settings.Found
import SerialLock.Proofs.Status.Together
import SerialLock.Proofs.Run.Program
import SerialLock.Proofs.Pid.Numeral
import SerialLock.Proofs.Run.Discards
import SerialLock.Proofs.Text.Trim
import SerialLock.Proofs.Text.Utf8
import SerialLock.Proofs.CommandLine.Canonical
import SerialLock.Proofs.Pid.Contents
import SerialLock.Proofs.LockFile.Kept
import SerialLock.Proofs.Text.Ascii
import SerialLock.Proofs.Segments
import SerialLock.Proofs.FileName
import SerialLock.Proofs.FileTree.Inside
import SerialLock.Proofs.LockFile.Naming
import SerialLock.Proofs.LockFile.Spared
import SerialLock.Proofs.FileTree.Honest
import SerialLock.Proofs.LockFile.Settled
import SerialLock.Proofs.LockFile.Interleaving
import SerialLock.Proofs.LockFile.Race
import SerialLock.Proofs.LockFile.Agreement
import SerialLock.Proofs.Status.Sequence
import SerialLock.Proofs.Status.Asked
import SerialLock.Proofs.Status.Decision
import SerialLock.Proofs.Status.Trouble
import SerialLock.Proofs.Run.Result
import SerialLock.Proofs.Run.ExitCode
import SerialLock.Proofs.Run.Unread
import SerialLock.Proofs.Yaml.Placed
import SerialLock.Proofs.Yaml.Plain
import SerialLock.Proofs.Yaml.SingleQuoted
import SerialLock.Proofs.Yaml.DoubleQuoted
import SerialLock.Proofs.Yaml.Literal
import SerialLock.Proofs.Yaml.Arrival
import SerialLock.Proofs.Yaml.Value
import SerialLock.Proofs.Yaml.Entry
import SerialLock.Proofs.Settings.RoundTrip
import SerialLock.Proofs.Yaml.Mapping
import SerialLock.Proofs.Json.Decoder
import SerialLock.Proofs.Json.Decoded
import SerialLock.Proofs.Json.Written
import SerialLock.Proofs.Status.Told
import SerialLock.Proofs.Run.Views
import SerialLock.Proofs.Settings.Named
import SerialLock.Proofs.CommandLine.Items
import SerialLock.Proofs.CommandLine.Sides
import SerialLock.Proofs.CommandLine.Parted
import SerialLock.Proofs.CommandLine.Moved
import SerialLock.Proofs.Run.MoreLog
import SerialLock.Proofs.LockFile.LastSegment
import SerialLock.Proofs.Run.Stops
import SerialLock.Proofs.CommandLine.Operands
import SerialLock.Proofs.Run.Lines
import SerialLock.Proofs.Settings.Precedence
import SerialLock.Proofs.Yaml.Blank
import SerialLock.Proofs.Yaml.Grammar
import SerialLock.Proofs.Settings.Entries
import SerialLock.Proofs.Yaml.Vacant
import SerialLock.Proofs.Settings.Vacant
