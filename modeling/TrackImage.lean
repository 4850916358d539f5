import TrackImage.Checksum.Crc32
import TrackImage.Command.Outcome
import TrackImage.Command.Request
import TrackImage.Command.Tool
import TrackImage.Device.Fault
import TrackImage.Device.Replies
import TrackImage.Device.Sink
import TrackImage.Device.Source
import TrackImage.Event
import TrackImage.Failure
import TrackImage.Files.Conditions
import TrackImage.Files.Path
import TrackImage.Files.PendingOutput
import TrackImage.Files.Run
import TrackImage.Files.Tree
import TrackImage.IoError
import TrackImage.Sector.Extraction
import TrackImage.Sector.Layout
import TrackImage.Sector.PayloadReader
import TrackImage.Sector.Payloads
import TrackImage.Sector.Report
import TrackImage.Stream.Batcher
import TrackImage.Stream.ByteSink
import TrackImage.Stream.ByteSource
import TrackImage.Stream.Deliver
import TrackImage.Stream.Fill
import TrackImage.Stream.Measure
import TrackImage.Table.Listing
import TrackImage.Table.Occurrence
import TrackImage.Table.OneBit
import TrackImage.Table.Report
import TrackImage.Table.Scan
import TrackImage.Table.Tag
import TrackImage.Table.Verdict
import TrackImage.Table.Window
import TrackImage.Table.WindowReader
import TrackImage.Text.Hex
import TrackImage.Proofs.Device.Reading
import TrackImage.Proofs.Device.Writing
import TrackImage.Proofs.Device.Replying
import TrackImage.Main
import TrackImage.Proofs.Sector.Standing
import TrackImage.Proofs.Sector.Copying
import TrackImage.Proofs.Sector.Output
import TrackImage.Proofs.Sector.Complete
import TrackImage.Proofs.Sector.FailStop
import TrackImage.Proofs.Table.Occurrences
import TrackImage.Proofs.Table.Standing
import TrackImage.Proofs.Table.Settling
import TrackImage.Proofs.Table.Output
import TrackImage.Proofs.Table.Complete
import TrackImage.Proofs.Table.FailStop
import TrackImage.Proofs.Stream.Courses
import TrackImage.Proofs.Stream.Batching
import TrackImage.Proofs.Device.Serving
import TrackImage.Proofs.Device.Room
import TrackImage.Proofs.Sector.Delivering
import TrackImage.Proofs.Device.Holding
import TrackImage.Proofs.Sector.Unread
import TrackImage.Proofs.Files.Looking
import TrackImage.Proofs.Files.Pending
import TrackImage.Proofs.Files.AllOrNothing
import TrackImage.Proofs.Sector.Stepping
import TrackImage.Proofs.Sector.Truncation
import TrackImage.Proofs.Table.Decoding
import TrackImage.Proofs.Table.Truncation
import TrackImage.Proofs.Sector.Tally
import TrackImage.Proofs.Table.Partition
import TrackImage.Proofs.Table.Judging
import TrackImage.Proofs.Table.Balance
import TrackImage.Proofs.Table.Resuming
import TrackImage.Proofs.Sector.Resuming
import TrackImage.Proofs.Device.Failing
import TrackImage.Proofs.Device.Surviving
import TrackImage.Proofs.Device.Retrying
import TrackImage.Proofs.Files.Committing
import TrackImage.Proofs.Files.Succeeding
import TrackImage.Proofs.Command.ExitCode
import TrackImage.Proofs.Sector.Reported
import TrackImage.Proofs.Table.Naming
import TrackImage.Proofs.Table.Logging
import TrackImage.Proofs.Table.Remembering
import TrackImage.Proofs.Sector.Words
import TrackImage.Proofs.Table.Words
import TrackImage.Proofs.Words
import TrackImage.Proofs.Device.Counting
import TrackImage.Proofs.Sector.Ending
import TrackImage.Proofs.Ending
import TrackImage.Proofs.Device.Batches
