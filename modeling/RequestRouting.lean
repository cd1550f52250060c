import RequestRouting.Assembly
import RequestRouting.Attributes
import RequestRouting.Callback
import RequestRouting.Client.Basic
import RequestRouting.Client.Cookie
import RequestRouting.Client.Settings
import RequestRouting.Client.Transport
import RequestRouting.Context
import RequestRouting.Dispatch.Blocking
import RequestRouting.Dispatch.Carried
import RequestRouting.Dispatch.Dispatcher
import RequestRouting.Dispatch.Engine
import RequestRouting.Dispatch.Notice
import RequestRouting.Dispatch.Program
import RequestRouting.Dispatch.Suspending
import RequestRouting.Dispatch.Task
import RequestRouting.Failure
import RequestRouting.Handler
import RequestRouting.Http.Actions
import RequestRouting.Http.Call
import RequestRouting.Http.Draft
import RequestRouting.Http.Header
import RequestRouting.Http.Invalid
import RequestRouting.Http.Logging
import RequestRouting.Http.Method
import RequestRouting.Http.Request
import RequestRouting.Http.Response
import RequestRouting.Http.Route
import RequestRouting.Http.Router
import RequestRouting.Http.Service
import RequestRouting.Http.Status
import RequestRouting.Http.Token
import RequestRouting.Http.Uri
import RequestRouting.Http.Urlencoded
import RequestRouting.Journal
import RequestRouting.Pattern.Basic
import RequestRouting.Pattern.Error
import RequestRouting.Pattern.Expression
import RequestRouting.Pattern.Literal
import RequestRouting.Pattern.Template
import RequestRouting.Predicate
import RequestRouting.Regex.Basic
import RequestRouting.Regex.CharSet
import RequestRouting.Regex.Match
import RequestRouting.Regex.Property
import RequestRouting.Regex.Reader
import RequestRouting.Script
import RequestRouting.Text.CaseOrbit
import RequestRouting.Text.Category
import RequestRouting.Text.CharClass
import RequestRouting.Text.Duration
import RequestRouting.Text.Quoted
import RequestRouting.Text.Utf8
import RequestRouting.TextEvent
import RequestRouting.TimeLimit
import RequestRouting.Trace
import RequestRouting.Proofs.Addresses
import RequestRouting.Proofs.Agreement
import RequestRouting.Proofs.Chain
import RequestRouting.Proofs.Conduct
import RequestRouting.Proofs.Confined
import RequestRouting.Proofs.Course
import RequestRouting.Proofs.Deeper
import RequestRouting.Proofs.Depth
import RequestRouting.Proofs.FirstRoute
import RequestRouting.Proofs.Insertion
import RequestRouting.Proofs.Invisible
import RequestRouting.Proofs.Lockstep
import RequestRouting.Proofs.Mounting
import RequestRouting.Proofs.Oblivious
import RequestRouting.Proofs.Observation
import RequestRouting.Proofs.Outermost
import RequestRouting.Proofs.Outline
import RequestRouting.Proofs.Plain
import RequestRouting.Proofs.Reached
import RequestRouting.Proofs.Rollback
import RequestRouting.Proofs.RouteCalls
import RequestRouting.Proofs.Selection
import RequestRouting.Proofs.SingleUse
import RequestRouting.Proofs.Splice
import RequestRouting.Proofs.Tour
import RequestRouting.Proofs.Transparent
import RequestRouting.Proofs.OwnPredicate
import RequestRouting.Proofs.JoinedText
import RequestRouting.Proofs.Parsed
import RequestRouting.Proofs.Reading
import RequestRouting.Proofs.JoinedMatch
import RequestRouting.Proofs.Lineages
import RequestRouting.Proofs.NestedGroups
import RequestRouting.Proofs.GreedySplit
import RequestRouting.Proofs.Anchoring
import RequestRouting.Proofs.UnderAny
import RequestRouting.Proofs.Associativity
import RequestRouting.Proofs.Jar
import RequestRouting.Proofs.CookieHistory
import RequestRouting.Proofs.Cancellation
import RequestRouting.Proofs.Spans
import RequestRouting.Proofs.Rounds
import RequestRouting.Proofs.Outcomes
import RequestRouting.Proofs.Growth
import RequestRouting.Proofs.Numbering
import RequestRouting.Proofs.TypedPlaceholders
import RequestRouting.Proofs.Sending
import RequestRouting.Proofs.CookieHeader
import RequestRouting.Proofs.Sparing
import RequestRouting.Proofs.ClientChain
import RequestRouting.Proofs.SingleSend
import RequestRouting.Proofs.IdleHandler
import RequestRouting.Proofs.JoinedSplits
import RequestRouting.Proofs.Grammar
import RequestRouting.Proofs.Violations
import RequestRouting.Proofs.TemplateGrammar
import RequestRouting.Proofs.DistinctGroups
import RequestRouting.Proofs.Extraction
import RequestRouting.Proofs.Sightings
import RequestRouting.Proofs.OwnParameters
import RequestRouting.Proofs.Concatenation
import RequestRouting.Proofs.Utf8RoundTrip
import RequestRouting.Proofs.QueryString
import RequestRouting.Proofs.Defaults
import RequestRouting.Proofs.Unwinding
import RequestRouting.Proofs.Timeline
import RequestRouting.Proofs.TimeLimits
import RequestRouting.Proofs.DeclaredExtents
