import Intrinsics.Main
import Intrinsics.Text.Escape
import Intrinsics.Token.Buffer
import Intrinsics.Proofs.Scan.Survey
import Intrinsics.Proofs.Scan.Closed
import Intrinsics.Proofs.Declaration.Parts
import Intrinsics.Proofs.Declaration.Lines
import Intrinsics.Proofs.Scan.Lines
import Intrinsics.Proofs.Scan.Adjacent
import Intrinsics.Proofs.Declaration.Origins
import Intrinsics.Proofs.Stub.RoundTrip
import Intrinsics.Proofs.Token.Coverage
import Intrinsics.Proofs.Token.Queue
import Intrinsics.Proofs.Disk.Growth
import Intrinsics.Proofs.Generation.Outcomes
import Intrinsics.Proofs.Scan.Accounting
import Intrinsics.Proofs.Scan.Initializer
import Intrinsics.Proofs.Declaration.ClassForm
import Intrinsics.Proofs.Declaration.MemberForms
import Intrinsics.Proofs.Scan.Spacing
import Intrinsics.Proofs.Declaration.Order
import Intrinsics.Proofs.Stub.Emission
import Intrinsics.Proofs.Path.Components
import Intrinsics.Proofs.Generation.StubPaths
import Intrinsics.Proofs.Disk.Directories
import Intrinsics.Proofs.Generation.Unobstructed
import Intrinsics.Proofs.Token.Extents
import Intrinsics.Proofs.Token.Literals
import Intrinsics.Proofs.Token.Words
import Intrinsics.Proofs.Disk.Discovery
import Intrinsics.Proofs.Settings.Layers
import Intrinsics.Proofs.Declaration.NameForms
import Intrinsics.Proofs.Session.Transcripts
import Intrinsics.Proofs.Token.Symbols
