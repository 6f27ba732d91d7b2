import SignatureLattice.Draft
import SignatureLattice.Drafting
import SignatureLattice.Fingerprint
import SignatureLattice.Session
import SignatureLattice.Supervision
import SignatureLattice.Proofs.Hereditary
import SignatureLattice.Proofs.Outcome
import SignatureLattice.Proofs.Merging
import SignatureLattice.Proofs.Validity
import SignatureLattice.Proofs.Assembly
import SignatureLattice.Proofs.Erasure
import SignatureLattice.Proofs.Regularity
import SignatureLattice.Proofs.Commutation
import SignatureLattice.Proofs.Exact
import SignatureLattice.Proofs.Positions
import SignatureLattice.Proofs.Association
import SignatureLattice.Proofs.Fitting
import SignatureLattice.Proofs.LeastUpperBound
import SignatureLattice.Proofs.Overlap
import SignatureLattice.Proofs.LeastSignature
import SignatureLattice.Proofs.Compatibility
import SignatureLattice.Proofs.Totality
import SignatureLattice.Proofs.Reflexivity
import SignatureLattice.Proofs.Variance
import SignatureLattice.Proofs.StandingIn
import SignatureLattice.Proofs.Chaining
import SignatureLattice.Proofs.Transitivity
import SignatureLattice.Proofs.LowerBound
import SignatureLattice.Proofs.Remerging
import SignatureLattice.Proofs.Slotwise
import SignatureLattice.Proofs.Leniency
import SignatureLattice.Proofs.Fingerprinting
import SignatureLattice.Proofs.Observations
import SignatureLattice.Proofs.Layouts
import SignatureLattice.Proofs.Representation
import SignatureLattice.Proofs.DataTypes
import SignatureLattice.Proofs.NormalForm
import SignatureLattice.Proofs.Indifference
import SignatureLattice.Proofs.Extent
import SignatureLattice.Proofs.Finiteness
import SignatureLattice.Proofs.Oversight
import SignatureLattice.Proofs.Acceptance
import SignatureLattice.Proofs.Strands
