import LocalScopes.Body.Reader
import LocalScopes.Body.Writer
import LocalScopes.Bytes.PlannedSink
import LocalScopes.Bytes.PlannedSource
import LocalScopes.Json.Reader
import LocalScopes.Json.Writer
import LocalScopes.Log.Journal
import LocalScopes.Method.Attribute
import LocalScopes.Method.Slots
import LocalScopes.Symbol.ClassConstants
import LocalScopes.Symbol.StringPool
import LocalScopes.Proofs.Symbol.PoolHistory
import LocalScopes.Proofs.Bytes.SinkFaults
import LocalScopes.Proofs.Body.Acceptance
import LocalScopes.Proofs.Body.Delivery
import LocalScopes.Proofs.Body.Indexing
import LocalScopes.Proofs.Body.RoundTrip
import LocalScopes.Proofs.Body.Archive
import LocalScopes.Proofs.Body.PoolIndexing
import LocalScopes.Proofs.Body.Retry
import LocalScopes.Proofs.Body.Stall
import LocalScopes.Proofs.Body.Unfinished
import LocalScopes.Proofs.Method.Grammar
import LocalScopes.Proofs.Method.ConsecutiveSlots
import LocalScopes.Proofs.Table.LastEntry
import LocalScopes.Proofs.Method.ParameterNames
import LocalScopes.Proofs.Table.Pieces
import LocalScopes.Proofs.Body.Fragments
import LocalScopes.Proofs.Symbol.ConstantNumbering
import LocalScopes.Proofs.Body.Correspondence
import LocalScopes.Proofs.Method.ClassBodies
import LocalScopes.Proofs.Method.ViablePrefix
import LocalScopes.Proofs.Json.StringText
import LocalScopes.Proofs.Json.NumberText
import LocalScopes.Proofs.Json.ValueText
import LocalScopes.Proofs.Json.MemberText
import LocalScopes.Proofs.Json.ObjectReading
import LocalScopes.Proofs.Json.ScopeText
import LocalScopes.Proofs.Json.RoundTrip
import LocalScopes.Proofs.Symbol.FirstIndex
import LocalScopes.Proofs.Symbol.Filling
import LocalScopes.Proofs.Table.Reordering
import LocalScopes.Proofs.Body.Capacity
import LocalScopes.Proofs.Body.Relabeling
import LocalScopes.Proofs.Body.Rewriting
import LocalScopes.Proofs.Body.EventTrace
import LocalScopes.Proofs.Table.OffsetZero
import LocalScopes.Proofs.Method.AttributeEvents
