import TypeStrip.Cursor
import TypeStrip.Diagnostic.Build
import TypeStrip.Main
import TypeStrip.Page
import TypeStrip.Sketch.Build
import TypeStrip.Proofs.Lexeme
import TypeStrip.Proofs.Segmentation
import TypeStrip.Proofs.Readable
import TypeStrip.Proofs.Grammar
import TypeStrip.Proofs.Parsing
import TypeStrip.Proofs.Skeleton
import TypeStrip.Proofs.Emission
import TypeStrip.Proofs.Rereading
import TypeStrip.Proofs.Joining
import TypeStrip.Proofs.Cuts
import TypeStrip.Proofs.Regularity
import TypeStrip.Proofs.Recompiling
import TypeStrip.Proofs.Annotations
import TypeStrip.Proofs.Parsing.Prefixes
import TypeStrip.Proofs.Scanning
import TypeStrip.Proofs.Failures
import TypeStrip.Proofs.Sessions.Agreement
import TypeStrip.Proofs.Sessions.Requests
import TypeStrip.Proofs.Sessions.Settled
import TypeStrip.Proofs.Sessions.Isolation
import TypeStrip.Proofs.Concatenation
import TypeStrip.Proofs.Models.Acceptance
import TypeStrip.Proofs.Models.Roundtrip
import TypeStrip.Proofs.ScanFaults
import TypeStrip.Proofs.Splitting
import TypeStrip.Proofs.Pages
import TypeStrip.Proofs.Messages
import TypeStrip.Proofs.Quoting
import TypeStrip.Proofs.Layouts
import TypeStrip.Proofs.CommandLine
import TypeStrip.Proofs.Cursors.Limits
import TypeStrip.Proofs.DeclaredTypes
import TypeStrip.Proofs.Sketches
import TypeStrip.Proofs.Positions
import TypeStrip.Proofs.Sessions.Announcements
import TypeStrip.Proofs.Sessions.Steps
import TypeStrip.Proofs.Sessions.Transitions
import TypeStrip.Proofs.Sessions.Events
