import Calculator.Number.Binary64.Bits
import Calculator.Proofs.Document.Fields
import Calculator.Proofs.Document.RoundTrip
import Calculator.Proofs.Expression.ActiveCalls
import Calculator.Proofs.Expression.Closing
import Calculator.Proofs.Expression.Lookahead
import Calculator.Proofs.Expression.Meaning
import Calculator.Proofs.Expression.Overrun
import Calculator.Proofs.Expression.Progress
import Calculator.Proofs.Expression.Shape
import Calculator.Proofs.Session.Delivery
import Calculator.Proofs.Session.PendingOperator
import Calculator.Proofs.Session.Records
import Calculator.Proofs.Session.TypedCalculation
import Calculator.Proofs.State.AdjacentOperators
import Calculator.Proofs.State.Deletion
import Calculator.Proofs.State.DisplayText
import Calculator.Proofs.State.Flags
import Calculator.Proofs.State.HistoryEntries
import Calculator.Proofs.State.Settings
