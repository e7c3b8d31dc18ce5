import ScriptVM.Builtins.Arguments
import ScriptVM.Builtins.Arrays
import ScriptVM.Builtins.Errors
import ScriptVM.Builtins.Functions
import ScriptVM.Builtins.Install
import ScriptVM.Builtins.Objects
import ScriptVM.Builtins.Promises
import ScriptVM.Builtins.Symbols
import ScriptVM.Builtins.Table
import ScriptVM.Bytecode.Assembly
import ScriptVM.Bytecode.Builder
import ScriptVM.Bytecode.Chunk
import ScriptVM.Bytecode.Instruction
import ScriptVM.Bytecode.Verifier
import ScriptVM.Fault
import ScriptVM.Heap.Basic
import ScriptVM.Heap.Collect
import ScriptVM.Heap.Property
import ScriptVM.Heap.PropertyTable
import ScriptVM.Heap.Shape
import ScriptVM.Machine.Activation
import ScriptVM.Machine.Builtin
import ScriptVM.Machine.CachedAccess
import ScriptVM.Machine.Calls
import ScriptVM.Machine.Cells
import ScriptVM.Machine.Classes
import ScriptVM.Machine.Config
import ScriptVM.Machine.Conversion
import ScriptVM.Machine.Coroutines
import ScriptVM.Machine.Descriptor
import ScriptVM.Machine.Dispatch
import ScriptVM.Machine.Display
import ScriptVM.Machine.Elements
import ScriptVM.Machine.Embedding
import ScriptVM.Machine.Enumeration
import ScriptVM.Machine.Exception
import ScriptVM.Machine.Exec
import ScriptVM.Machine.Frame
import ScriptVM.Machine.Host
import ScriptVM.Machine.Hosted
import ScriptVM.Machine.InlineCache
import ScriptVM.Machine.Inspection
import ScriptVM.Machine.Iteration
import ScriptVM.Machine.Jobs
import ScriptVM.Machine.ObjectKind
import ScriptVM.Machine.Objects
import ScriptVM.Machine.Operators
import ScriptVM.Machine.Promises
import ScriptVM.Machine.Reading
import ScriptVM.Machine.References
import ScriptVM.Machine.Reply
import ScriptVM.Machine.Routing
import ScriptVM.Machine.Run
import ScriptVM.Machine.Session
import ScriptVM.Machine.State
import ScriptVM.Machine.Symbols
import ScriptVM.Machine.Template
import ScriptVM.Machine.Unwind
import ScriptVM.Machine.Writing
import ScriptVM.Number.Binary
import ScriptVM.Number.Nearest
import ScriptVM.Number.Parse
import ScriptVM.Number.Shortest
import ScriptVM.Number.Text
import ScriptVM.Promise.Aggregate
import ScriptVM.Promise.Record
import ScriptVM.Promise.Rejections
import ScriptVM.PropertyKey
import ScriptVM.Schedule.EventLoop
import ScriptVM.Schedule.JobQueue
import ScriptVM.Text.Blank
import ScriptVM.Text.Quoted
import ScriptVM.Text.Units16
import ScriptVM.Text.Unprintable
import ScriptVM.Value
import ScriptVM.Proofs.HeapObjects
import ScriptVM.Proofs.Transition
import ScriptVM.Proofs.Coherence
import ScriptVM.Proofs.Balance
import ScriptVM.Proofs.Discipline
import ScriptVM.Proofs.Discipline.Properties
import ScriptVM.Proofs.Discipline.Builtins
import ScriptVM.Proofs.Discipline.Operations
import ScriptVM.Proofs.Balance.Operations
import ScriptVM.Proofs.FrameStack
import ScriptVM.Proofs.Unwinding
import ScriptVM.Proofs.FreshFrames
import ScriptVM.Proofs.Instructions
import ScriptVM.Proofs.Dispatch
import ScriptVM.Proofs.DispatchRuns
import ScriptVM.Proofs.Coroutines
import ScriptVM.Proofs.Calls
import ScriptVM.Proofs.Reachable
import ScriptVM.Proofs.Verification
import ScriptVM.Proofs.Templates
import ScriptVM.Proofs.Targets
import ScriptVM.Proofs.FrameRanges
import ScriptVM.Proofs.CoroutineStates
import ScriptVM.Proofs.CapturedVariables
import ScriptVM.Proofs.Resumptions
import ScriptVM.Proofs.Layouts
import ScriptVM.Proofs.Collection
import ScriptVM.Proofs.CacheEntries
import ScriptVM.Proofs.CacheCalls
import ScriptVM.Proofs.CachedReads
import ScriptVM.Proofs.CachedWrites
import ScriptVM.Proofs.Completions
import ScriptVM.Proofs.FinallyBodies
import ScriptVM.Proofs.RunningBodies
import ScriptVM.Proofs.Proxies
import ScriptVM.Proofs.ProxyTransparency
import ScriptVM.Proofs.KeptObjects
import ScriptVM.Proofs.Discipline.Frames
import ScriptVM.Proofs.Discipline.Hosts
import ScriptVM.Proofs.Pins
import ScriptVM.Proofs.PinnedProperties
import ScriptVM.Proofs.FrozenObjects
import ScriptVM.Proofs.Consistency
import ScriptVM.Proofs.FreeLists
import ScriptVM.Proofs.Soundness
import ScriptVM.Proofs.Soundness.Builtins
import ScriptVM.Proofs.Soundness.Coroutines
import ScriptVM.Proofs.Sustaining.Collections
import ScriptVM.Proofs.Soundness.Calls
import ScriptVM.Proofs.Soundness.Install
import ScriptVM.Proofs.Sessions
import ScriptVM.Proofs.StoredValues
import ScriptVM.Proofs.PrototypeChains
import ScriptVM.Proofs.PromiseEvolutions
import ScriptVM.Proofs.PromiseRecords
import ScriptVM.Proofs.PromiseHistories
import ScriptVM.Proofs.PromiseFates
import ScriptVM.Proofs.FatedRuns
import ScriptVM.Proofs.Latches
import ScriptVM.Proofs.FirstCalls
import ScriptVM.Proofs.Checkpoints
import ScriptVM.Proofs.RejectionReports
import ScriptVM.Proofs.Exceptions
import ScriptVM.Proofs.JobFailures
import ScriptVM.Proofs.Journals
import ScriptVM.Proofs.ShapeCounts
import ScriptVM.Proofs.Reclamation
import ScriptVM.Proofs.BuilderSessions
import ScriptVM.Proofs.BuiltChunks
import ScriptVM.Proofs.WalkQueries
import ScriptVM.Proofs.WalkSteps
import ScriptVM.Proofs.PropertyWalks
import ScriptVM.Proofs.StoredProperties
import ScriptVM.Proofs.OwnKeys
import ScriptVM.Proofs.DescriptorRules
import ScriptVM.Proofs.ClosedObjects
import ScriptVM.Proofs.Trails
import ScriptVM.Proofs.ThisScopes
import ScriptVM.Proofs.Doubles
import ScriptVM.Proofs.ArrayBounds
import ScriptVM.Proofs.TableKeys
import ScriptVM.Proofs.KeyOrders
import ScriptVM.Proofs.Lifetimes
import ScriptVM.Proofs.LifetimeChanges
import ScriptVM.Proofs.SharedRegisters
import ScriptVM.Proofs.EnumeratedKeys
import ScriptVM.Proofs.DefinedProperties
import ScriptVM.Proofs.StringKeys
import ScriptVM.Proofs.ArrayPushes
import ScriptVM.Proofs.SuperCalls
import ScriptVM.Proofs.IndexedReads
import ScriptVM.Proofs.Labels
import ScriptVM.Proofs.BoundFunctions
import ScriptVM.Proofs.Numerals
import ScriptVM.Proofs.Rounding
import ScriptVM.Proofs.ShortestDecimals
import ScriptVM.Proofs.NumberLiterals
import ScriptVM.Proofs.NumberTexts
import ScriptVM.Proofs.DescriptorRoundTrips
import ScriptVM.Proofs.Renderings
import ScriptVM.Proofs.Aggregates
