import DispatchTable.Main
import DispatchTable.Session
import DispatchTable.Proofs.Forwarding
import DispatchTable.Proofs.Merge
import DispatchTable.Proofs.NamedArguments
import DispatchTable.Proofs.Outcome
import DispatchTable.Proofs.OwnFunctions
import DispatchTable.Proofs.Provenance
import DispatchTable.Proofs.RoundTrip
import DispatchTable.Proofs.Table
import DispatchTable.Proofs.PlainInfluence
import DispatchTable.Proofs.Rearrangement
import DispatchTable.Proofs.Remerging
import DispatchTable.Proofs.FailedMerge
import DispatchTable.Proofs.HeaderGrammar
import DispatchTable.Proofs.Warnings
import DispatchTable.Proofs.Exclusion
import DispatchTable.Proofs.ClosedForm
import DispatchTable.Proofs.Generation
import DispatchTable.Proofs.Reblanking
import DispatchTable.Proofs.Continuation
import DispatchTable.Proofs.Artifact
import DispatchTable.Proofs.ParameterList
