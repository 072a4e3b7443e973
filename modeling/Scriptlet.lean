import Scriptlet.Main
import Scriptlet.Proofs.Grammar.Exact
import Scriptlet.Proofs.Grammar.Locality
import Scriptlet.Proofs.Token.Positions
import Scriptlet.Proofs.Environment.MapStack
import Scriptlet.Proofs.Session.Restored
import Scriptlet.Proofs.Session.Scoping
import Scriptlet.Proofs.Session.Blame
import Scriptlet.Proofs.Session.Verdict
import Scriptlet.Proofs.Session.Output
import Scriptlet.Proofs.Session.Kinds
import Scriptlet.Proofs.Session.Joined
import Scriptlet.Proofs.Token.Rescan
import Scriptlet.Proofs.CommandLine.Modes
import Scriptlet.Proofs.Session.Layout
import Scriptlet.Proofs.Grammar.WellFormed
import Scriptlet.Proofs.Grammar.Written
import Scriptlet.Proofs.Token.Cleared
import Scriptlet.Proofs.Grammar.Closers
import Scriptlet.Proofs.Grammar.EndMarker
import Scriptlet.Proofs.Grammar.ClosingBrace
import Scriptlet.Proofs.Grammar.FirstEnd
import Scriptlet.Proofs.Grammar.Progress
import Scriptlet.Proofs.Grammar.Order
import Scriptlet.Proofs.Session.Footprint
import Scriptlet.Proofs.Source.Chunks
import Scriptlet.Proofs.Session.Numerals
import Scriptlet.Proofs.Grammar.NilLiterals
import Scriptlet.Proofs.Program.Forms
