import GeneratedCode.Session.Step
import GeneratedCode.Proofs.FileName.Forms
import GeneratedCode.Proofs.Call.Pace
import GeneratedCode.Proofs.Trivia.Pieces
import GeneratedCode.Proofs.Trivia.Grammar
import GeneratedCode.Proofs.Trivia.Extension
import GeneratedCode.Proofs.Trivia.Joining
import GeneratedCode.Proofs.Trivia.LineFeeds
import GeneratedCode.Proofs.Token.First
import GeneratedCode.Proofs.Token.Reads
import GeneratedCode.Proofs.Marker.Comments
import GeneratedCode.Proofs.Marker.Header
import GeneratedCode.Proofs.Marker.Scan
import GeneratedCode.Proofs.Text.Utf8
import GeneratedCode.Proofs.Text.Digit
import GeneratedCode.Proofs.Tree.Root
import GeneratedCode.Proofs.Tree.Pace
import GeneratedCode.Proofs.Tree.Growth
import GeneratedCode.Proofs.Tree.Reading
import GeneratedCode.Proofs.Tree.Verdict
import GeneratedCode.Proofs.Tree.LineFeeds
import GeneratedCode.Proofs.Tree.Reads
import GeneratedCode.Proofs.Tree.Cancelling
import GeneratedCode.Proofs.Tree.CompleteLines
import GeneratedCode.Proofs.Tree.LongerTexts
import GeneratedCode.Proofs.Cache.Slot
import GeneratedCode.Proofs.Cache.Cancelling
import GeneratedCode.Proofs.Cache.Table
import GeneratedCode.Proofs.Memory.Tables
import GeneratedCode.Proofs.Memory.Serials
import GeneratedCode.Proofs.Memory.Turns
import GeneratedCode.Proofs.Memory.Entries
import GeneratedCode.Proofs.Session.Run
import GeneratedCode.Proofs.Session.Project
import GeneratedCode.Proofs.Session.WellFormed
import GeneratedCode.Proofs.Session.World
import GeneratedCode.Proofs.Session.Report
import GeneratedCode.Proofs.Session.Transparency
import GeneratedCode.Proofs.Session.Advances
import GeneratedCode.Proofs.Session.Roots
import GeneratedCode.Proofs.Ignore.Directories
import GeneratedCode.Proofs.Ignore.Bodies
import GeneratedCode.Proofs.Ignore.Lines
import GeneratedCode.Proofs.Ignore.Nested
import GeneratedCode.Proofs.Ignore.Meaning
import GeneratedCode.Proofs.Ignore.Confined
import GeneratedCode.Proofs.Ignore.Composition
import GeneratedCode.Proofs.Ignore.Inside
import GeneratedCode.Proofs.Path.Pieces
import GeneratedCode.Proofs.Project.Walk
import GeneratedCode.Proofs.Project.Scan
import GeneratedCode.Proofs.Disk.Names
import GeneratedCode.Proofs.Project.Sources
import GeneratedCode.Proofs.Project.IgnoreFiles
import GeneratedCode.Proofs.Project.Rules
import GeneratedCode.Proofs.Project.Pruning
import GeneratedCode.Proofs.Project.Pace
import GeneratedCode.Proofs.Project.Turns
import GeneratedCode.Proofs.Project.Footprint
import GeneratedCode.Proofs.Session.Turns
import GeneratedCode.Proofs.Session.Cancelling
import GeneratedCode.Proofs.Session.Footprint
import GeneratedCode.Proofs.Session.Asking
import GeneratedCode.Proofs.Session.NextTable
import GeneratedCode.Proofs.Session.Tables
import GeneratedCode.Proofs.Session.Retention
import GeneratedCode.Proofs.Session.Settings
