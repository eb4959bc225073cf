import EntityAccess.Proofs.Filter.Literals
import EntityAccess.Proofs.Filter.OperatorLaws
import EntityAccess.Proofs.Filter.Typing
import EntityAccess.Proofs.Json.RoundTrip
import EntityAccess.Proofs.Query.Expansions
import EntityAccess.Proofs.Query.Materialization
import EntityAccess.Proofs.Query.Pushdown
import EntityAccess.Proofs.Service.Atomicity
import EntityAccess.Proofs.Service.Ledger
import EntityAccess.Proofs.Service.Updates
import EntityAccess.Proofs.Service.Validation
import EntityAccess.Proofs.Shape.Declarations
import EntityAccess.Proofs.Store.RowOrder
import EntityAccess.Proofs.Value.Echo
import EntityAccess.Proofs.Value.Numbers
