import Clerkenwell.Foundation.Results
import Clerkenwell.Foundation.Association
import Clerkenwell.Foundation.Machine
import Clerkenwell.Foundation.Text
import Clerkenwell.Foundation.Codec
import Clerkenwell.Foundation.Program
import Clerkenwell.Foundation.Replacement
import Clerkenwell.Foundation.Interleaving
import Clerkenwell.Foundation.Sequential
import Clerkenwell.Client.JsonValue
import Clerkenwell.Client.AuthoringSession
import Clerkenwell.Client.AuthoringPersistence
import Clerkenwell.Client.LocalIntent
import Clerkenwell.Client.Blocks
import Clerkenwell.Client.OperationQueue
import Clerkenwell.Client.ConflictAgreement
import Clerkenwell.Client.ConflictPolicy
import Clerkenwell.Client.Collections
import Clerkenwell.Client.SharedValue
import Clerkenwell.Doc.Json
import Clerkenwell.Doc.Plan
import Clerkenwell.Doc.Loro
import Clerkenwell.Doc.EventLog
import Clerkenwell.Doc.Path
import Clerkenwell.Doc.Validation
import Clerkenwell.Doc.Writing
import Clerkenwell.Doc.Structured
import Clerkenwell.Doc.Fields
import Clerkenwell.Doc.Substrate
import Clerkenwell.Doc.Policy
import Clerkenwell.Doc.Addresses
import Clerkenwell.Doc.Containers
import Clerkenwell.Doc.Replica
import Clerkenwell.Doc.Revision
import Clerkenwell.Doc.Operations
import Clerkenwell.Doc.Exchange
import Clerkenwell.Store.Envelope
import Clerkenwell.Store.Port
import Clerkenwell.Store.Service
import Clerkenwell.Store.Import
import Clerkenwell.Store.Exchange
import Clerkenwell.Store.Recovery
import Clerkenwell.Store.Calls
import Clerkenwell.Store.History
import Clerkenwell.Store.Validity
import Clerkenwell.Store.Invariant
import Clerkenwell.Store.Steps
import Clerkenwell.Store.Reading
import Clerkenwell.Store.Judging
import Clerkenwell.Store.Committing
import Clerkenwell.Store.Exchanging
import Clerkenwell.Store.Importing
import Clerkenwell.Store.Refusing
import Clerkenwell.Store.Editing
import Clerkenwell.Store.Recovering
import Clerkenwell.Store.Sound
import Clerkenwell.Store.Serving
import Clerkenwell.Store.Retention
import Clerkenwell.Store.ExactReplies
import Clerkenwell.Store.Versions
import Clerkenwell.Store.Attribution
import Clerkenwell.Store.Windows
import Clerkenwell.Store.Fences
import Clerkenwell.Store.Outcomes
import Clerkenwell.Session.Subscriptions
import Clerkenwell.Session.RevisionChain
import Clerkenwell.Session.Materialize
import Clerkenwell.Session.Connection
import Clerkenwell.Session.Windows
import Clerkenwell.Session.Accounting
import Clerkenwell.Session.ExactlyOnce
import Clerkenwell.Session.InOrder
import Clerkenwell.Session.Following
import Clerkenwell.Session.Recovery
import Clerkenwell.Axum.Server
import Clerkenwell.Axum.Slots
import Clerkenwell.Axum.Answers
import Clerkenwell.Axum.Shutdown
import Clerkenwell.Client.ProjectionWatch
import Clerkenwell.Client.OneConnection
import Clerkenwell.Client.AlikeWatches
import Clerkenwell.Client.WatchResume
import Clerkenwell.Client.ResumedWatch
import Clerkenwell.Client.RpcSocket
import Clerkenwell.Client.OneSocket
import Clerkenwell.Codegen.MemberOrder
import Clerkenwell.Codegen.SchemaPaths
import Clerkenwell.Codegen.SettledEntities
import Clerkenwell.Codegen.SettledSemantics
import Clerkenwell.Codegen.Validity
import Clerkenwell.Codegen.Admission
import Clerkenwell.Codegen.AdmitsSound
import Clerkenwell.Codegen.Descents
import Clerkenwell.Codegen.SettledNodes
import Clerkenwell.Codegen.References
import Clerkenwell.Codegen.Semantics
import Clerkenwell.Client.TakenPeers
import Clerkenwell.Client.FixtureAgreement
import Clerkenwell.Client.TextConvergence
import Clerkenwell.Client.ListRewriting
import Clerkenwell.Session.ChangeRevisions
import Clerkenwell.Client.KeptOverlay
import Clerkenwell.Client.JsonEquality
import Clerkenwell.Client.Acknowledgement
import Clerkenwell.Client.ProjectionSubscribe
import Clerkenwell.Client.KeyedFolds
import Clerkenwell.Client.TextStreams
import Clerkenwell.Client.ProjectionFolds
import Clerkenwell.Foundation.Landing
import Clerkenwell.Doc.Waiting
import Clerkenwell.Doc.Refusals
import Clerkenwell.Doc.WaitingLog
import Clerkenwell.Client.OfferedUpdates
import Clerkenwell.Client.RefusedUpdates
import Clerkenwell.Foundation.Numerals
import Clerkenwell.Foundation.JsonText
import Clerkenwell.Codegen.NumberText
import Clerkenwell.Codegen.JsonReading
import Clerkenwell.Codegen.ObjectOrder
import Clerkenwell.Codegen.Spelling
import Clerkenwell.Codegen.RustNames
import Clerkenwell.Codegen.RustIdentifiers
import Clerkenwell.Codegen.DistinctNames
import Clerkenwell.Codegen.ModuleNames
import Clerkenwell.Codegen.BoundIdentifiers
import Clerkenwell.Client.JsonSerialisation
import Clerkenwell.Foundation.Exploring
import Clerkenwell.Codegen.JsonSchema
import Clerkenwell.Codegen.CheckedForms
import Clerkenwell.Codegen.Renderings
import Clerkenwell.Codegen.RenderingAgrees
import Clerkenwell.Codegen.SchemaDocument
import Clerkenwell.Codegen.WrittenSchemas
import Clerkenwell.Codegen.WrittenNodes
import Clerkenwell.Codegen.WrittenWithin
import Clerkenwell.Codegen.CheckedParts
import Clerkenwell.Codegen.WrittenDocuments
import Clerkenwell.Codegen.ExactDocuments
