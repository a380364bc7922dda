import Turnstile.Formula.Canonical
import Turnstile.Main
import Turnstile.Proofs.Solver
import Turnstile.Proofs.Soundness
import Turnstile.Proofs.Encoding
import Turnstile.Proofs.Decision
import Turnstile.Proofs.Lines
import Turnstile.Proofs.Table
import Turnstile.Proofs.Trim
import Turnstile.Proofs.Rounds
import Turnstile.Proofs.Core
import Turnstile.Proofs.ExitCode
import Turnstile.Proofs.Bound
import Turnstile.Proofs.Monotone
import Turnstile.Proofs.Refusal
import Turnstile.Proofs.Sequent
import Turnstile.Proofs.Flags
import Turnstile.Proofs.Session
import Turnstile.Proofs.Tokenization
import Turnstile.Proofs.Universe
import Turnstile.Proofs.Pass
import Turnstile.Proofs.Dependencies
import Turnstile.Proofs.InvalidText
import Turnstile.Proofs.RowOrder
import Turnstile.Proofs.Derivation
import Turnstile.Proofs.Blame
import Turnstile.Proofs.Tree
import Turnstile.Proofs.Bindings
import Turnstile.Proofs.Extension
