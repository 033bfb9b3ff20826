import Bundler.Main
import Bundler.Proofs.Copies
import Bundler.Proofs.Session
import Bundler.Proofs.Nesting
import Bundler.Proofs.Rewriting
import Bundler.Proofs.Containment
import Bundler.Proofs.Dropped
import Bundler.Proofs.Artifact
import Bundler.Proofs.Output
import Bundler.Proofs.Growth
import Bundler.Proofs.Halt
import Bundler.Proofs.Recorded
import Bundler.Proofs.Unchanged
import Bundler.Proofs.Abandoned
import Bundler.Proofs.Platform
import Bundler.Proofs.Overlay
import Bundler.Proofs.Chain
import Bundler.Proofs.Settled
import Bundler.Proofs.Hoisting
import Bundler.Proofs.Parentheses
import Bundler.Proofs.Resolution
import Bundler.Proofs.Declarations
import Bundler.Proofs.Strictness
import Bundler.Proofs.Within
import Bundler.Proofs.Following
import Bundler.Proofs.Externals
import Bundler.Proofs.Canonical
import Bundler.Proofs.Insertion
import Bundler.Proofs.Refused
import Bundler.Proofs.Environment
import Bundler.Proofs.Naming
