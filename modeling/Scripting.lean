import Scripting.Display.Debug
import Scripting.Host.Session
import Scripting.Main
import Scripting.State.Directory
import Scripting.Tree.Outline
import Scripting.Proofs.Acceptance
import Scripting.Proofs.Arithmetic
import Scripting.Proofs.Backtrace
import Scripting.Proofs.Comparison
import Scripting.Proofs.Conservation
import Scripting.Proofs.Enclosure
import Scripting.Proofs.Excerpt
import Scripting.Proofs.Expansion
import Scripting.Proofs.Frames
import Scripting.Proofs.GlobalNames
import Scripting.Proofs.Growth
import Scripting.Proofs.Identifiers
import Scripting.Proofs.Inheritance
import Scripting.Proofs.Isolation
import Scripting.Proofs.Layout
import Scripting.Proofs.Literals
import Scripting.Proofs.NativeCheck
import Scripting.Proofs.Nesting
import Scripting.Proofs.Payloads
import Scripting.Proofs.Precedence
import Scripting.Proofs.Progress
import Scripting.Proofs.ReadOnly
import Scripting.Proofs.References
import Scripting.Proofs.Rendering
import Scripting.Proofs.RoundTrip
import Scripting.Proofs.Scoping
import Scripting.Proofs.Sequence
import Scripting.Proofs.Stepping
import Scripting.Proofs.Strings
import Scripting.Proofs.Switch
import Scripting.Proofs.Underline
import Scripting.Proofs.VirtualMembers
