import Conduit.Proofs.Stack.Served
import Conduit.Proofs.Tls.Faces
import Conduit.Proofs.Tls.Inbound
import Conduit.Scenario.ChainScript
import Conduit.Scenario.Session
import Conduit.Text.Digest
import Conduit.Tls.Sized.Pipes
import Conduit.Tls.Trust.Identity
import Conduit.Proofs.Loopback.Farewells
import Conduit.Proofs.Stack.Receivers
import Conduit.Proofs.Stack.Stream
import Conduit.Proofs.Tls.Closing
import Conduit.Proofs.Tls.Window
import Conduit.Proofs.Layer.Inward
import Conduit.Proofs.Layer.Manners
import Conduit.Proofs.Stack.Arena
import Conduit.Proofs.Stack.Chronicle
import Conduit.Proofs.Stack.Forgotten
import Conduit.Proofs.Stack.Lives
import Conduit.Proofs.Stack.Cut
import Conduit.Proofs.Tls.HalfClose
import Conduit.Proofs.Tls.Wakes
import Conduit.Proofs.Stack.Halves
import Conduit.Proofs.Stack.Integrity
import Conduit.Proofs.Stack.Ledger
import Conduit.Proofs.Stack.Upheld
import Conduit.Proofs.Stack.Moments
import Conduit.Proofs.Stack.Stale
import Conduit.Proofs.Stack.Stalls
import Conduit.Proofs.Stack.Course
import Conduit.Proofs.Tls.Writes
import Conduit.Proofs.Tls.Connects
import Conduit.Proofs.Stack.Transparent
import Conduit.Proofs.Tls.Portions
import Conduit.Proofs.Tls.Endings
import Conduit.Proofs.Loopback.Polls
import Conduit.Proofs.Stack.Rearmed
import Conduit.Proofs.Layer.Drains
import Conduit.Proofs.Tls.Sized.Uses
import Conduit.Proofs.Stack.InTurn
import Conduit.Proofs.Stack.Lifetimes
import Conduit.Proofs.Queue
import Conduit.Proofs.Stack.Acknowledged
import Conduit.Proofs.Stack.Shelved
import Conduit.Proofs.Stack.Reinstated
import Conduit.Proofs.Loopback.Standstill
import Conduit.Proofs.Stack.Docile
import Conduit.Proofs.Stack.Settling
import Conduit.Proofs.Loopback.Ports
import Conduit.Proofs.Stack.Partings
import Conduit.Proofs.Stack.Newcomers
