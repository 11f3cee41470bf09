import PkgInfo.Command.Run
import PkgInfo.Main
import PkgInfo.Proofs.Version.Inference
import PkgInfo.Proofs.Field.Naming
import PkgInfo.Proofs.Record.Reachable
import PkgInfo.Proofs.Document.Normal
import PkgInfo.Proofs.Marker.Grammar
import PkgInfo.Proofs.Marker.Scan
import PkgInfo.Proofs.Record.Conflict
import PkgInfo.Proofs.Record.Order
import PkgInfo.Proofs.Document.Intake
import PkgInfo.Proofs.Document.Fresh
import PkgInfo.Proofs.Record.Strict
import PkgInfo.Proofs.Record.Options
import PkgInfo.Proofs.Document.Resolved
import PkgInfo.Proofs.Header.Grammar
import PkgInfo.Proofs.Marker.Spelling
import PkgInfo.Proofs.Command.Precedence
import PkgInfo.Proofs.Version.Names
import PkgInfo.Proofs.Document.Description
import PkgInfo.Proofs.Marker.Stream
import PkgInfo.Proofs.Document.Rearranged
import PkgInfo.Proofs.Marker.Layout
import PkgInfo.Proofs.Marker.Duality
import PkgInfo.Proofs.Predicate.Display
import PkgInfo.Proofs.Predicate.Forms
import PkgInfo.Proofs.Predicate.Grammar
import PkgInfo.Proofs.Predicate.Patterns
import PkgInfo.Proofs.Record.Undoing
import PkgInfo.Proofs.Record.Findings
import PkgInfo.Proofs.Record.Entries
import PkgInfo.Proofs.Record.Unknown
import PkgInfo.Proofs.Header.LineEnds
import PkgInfo.Proofs.Value.TopLevel
import PkgInfo.Proofs.Value.Replacing
import PkgInfo.Proofs.Record.Resetting
import PkgInfo.Proofs.Settings.Variables
import PkgInfo.Proofs.Marker.Progress
