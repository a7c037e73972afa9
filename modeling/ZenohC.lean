import ZenohC.Library.Machine
import ZenohC.Library.Custody
import ZenohC.Transmute
import ZenohC.Collections.Ownership
import ZenohC.Collections.Gravestones
import ZenohC.Closures.LifeCycle
import ZenohC.Closures.SampleLoans
import ZenohC.Platform.GuardSlot
import ZenohC.Api.QueryArguments
import ZenohC.Api.Constructed
import ZenohC.Shm.Provider
import ZenohC.Api.Constructors
import ZenohC.Api.Destinations
import ZenohC.Headers.FeatureDefines
import ZenohC.Headers.VisibleLines
import ZenohC.Headers.SplitGuide
import ZenohC.Headers.Routing
import ZenohC.Library.SharedCells
import ZenohC.Shm.Contexts
import ZenohC.Shm.ContextLifeCycle
import ZenohC.Headers.Tokenizer
import ZenohC.Headers.TokenSpans
import ZenohC.Headers.TokenStream
import ZenohC.Headers.TokenShuffle
import ZenohC.Headers.RecordBalance
import ZenohC.Headers.SplitFiles
import ZenohC.Headers.Directives
import ZenohC.Headers.Declarations
import ZenohC.Headers.Features
import ZenohC.Headers.LoanedTypes
import ZenohC.Headers.GenericCalls
import ZenohC.Headers.FunctionSearch
import ZenohC.Headers.GenericsCheck
import ZenohC.Headers.EnumReading
import ZenohC.Headers.EnumDefaults
import ZenohC.Headers.EnumMatches
import ZenohC.Headers.EnumRewriting
import ZenohC.Headers.EnumValues
import ZenohC.Headers.TypeNames
import ZenohC.Headers.OpaqueDocs
import ZenohC.Headers.OpaqueTypes
import ZenohC.Shm.Alignment
import ZenohC.Library.ExclusiveAccess
import ZenohC.Shm.Buffers
import ZenohC.Shm.BufferSharing
import ZenohC.Api.KeyExpr
import ZenohC.Api.KeyExprAgreement
import ZenohC.Api.KeyExprErrors
import ZenohC.Api.Deserialization
import ZenohC.Api.EncodingData
import ZenohC.Api.NullBuffers
import ZenohC.Api.LastError
import ZenohC.Library.Memory
import ZenohC.Library.LinkedChain
import ZenohC.Library.CriticalSections
import ZenohC.Library.LockStep
import ZenohC.Library.Leb128
import ZenohC.Api.Serialization
import ZenohC.Api.SerializerRuns
import ZenohC.Storage.Table
import ZenohC.Storage.Chains
import ZenohC.Storage.Contents
import ZenohC.Storage.Answers
import ZenohC.Storage.Handlers
import ZenohC.Collections.StringArrays
import ZenohC.Collections.StringArrayRefinement
import ZenohC.Headers.GenericFinders
import ZenohC.Headers.GenericsHeader
import ZenohC.Headers.FoundNames
import ZenohC.Headers.HeaderClosed
import ZenohC.Api.Publications
import ZenohC.Api.PublicationCalls
import ZenohC.Api.PublicationRuns
