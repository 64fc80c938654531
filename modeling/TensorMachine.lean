import TensorMachine.Main
import TensorMachine.Proofs.Acceptance
import TensorMachine.Proofs.Atomicity
import TensorMachine.Proofs.BadRecords
import TensorMachine.Proofs.BindingFaults
import TensorMachine.Proofs.CallOrder
import TensorMachine.Proofs.Canonical
import TensorMachine.Proofs.Computations
import TensorMachine.Proofs.DeferredReleases
import TensorMachine.Proofs.Encoding
import TensorMachine.Proofs.FailedCalls
import TensorMachine.Proofs.FieldReads
import TensorMachine.Proofs.ForeignHandles
import TensorMachine.Proofs.Headroom
import TensorMachine.Proofs.HostAgreement
import TensorMachine.Proofs.HostBalance
import TensorMachine.Proofs.LengthFields
import TensorMachine.Proofs.PoolAnswers
import TensorMachine.Proofs.Positions
import TensorMachine.Proofs.RepeatedInputs
import TensorMachine.Proofs.Reports
import TensorMachine.Proofs.ReturnTrips
import TensorMachine.Proofs.RoundTrip
import TensorMachine.Proofs.Sizes
import TensorMachine.Proofs.StoreHistory
import TensorMachine.Proofs.StoredRuns
import TensorMachine.Proofs.Successors
import TensorMachine.Proofs.SupplyOrder
import TensorMachine.Proofs.Values
