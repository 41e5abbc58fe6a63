import Aauth.Lib.Prog
import Aauth.Lib.Service
import Aauth.Lib.Pool
import Aauth.Lib.Result
import Aauth.Lib.Text
import Aauth.Lib.Json
import Aauth.Ref.HttpSig
import Aauth.Ref.PersonService
import Aauth.Ref.AccessServer
import Aauth.Proofs.Acceptance
import Aauth.Proofs.Http
import Aauth.Proofs.HttpSig
import Aauth.Proofs.Binding
import Aauth.Proofs.PersonEndpoint
import Aauth.Proofs.AccessEndpoint
import Aauth.Proofs.ResourceGate
import Aauth.Proofs.Store
import Aauth.Proofs.PersonSteps
import Aauth.Proofs.AccessSteps
import Aauth.Proofs.Finality
import Aauth.Sample.Servers
import Aauth.Proofs.Audience
import Aauth.Proofs.InteractionGate
import Aauth.Proofs.IssuerBinding
import Aauth.Proofs.PersonPaths
import Aauth.Proofs.PersonDecisions
import Aauth.Proofs.PersonRuns
import Aauth.Proofs.Provenance
import Aauth.Sample.Federation
import Aauth.Proofs.SelfMint
import Aauth.Proofs.Tokens
import Aauth.Proofs.AccessRuns
import Aauth.Proofs.ScopeBound
import Aauth.Proofs.UpdatedTokens
import Aauth.Proofs.Expiry
import Aauth.Proofs.Lifetime
import Aauth.Lib.Fields
import Aauth.Ref.Wire
import Aauth.Ref.AccessClient
import Aauth.Ref.AccessRequests
import Aauth.Proofs.Wire
import Aauth.Proofs.AgentInput
import Aauth.Proofs.Challenge
import Aauth.Proofs.PollWire
import Aauth.Proofs.Codes
import Aauth.Proofs.Concurrency
import Aauth.Ref.Agent
import Aauth.Proofs.AgentAuth
import Aauth.Ref.AgentClient
import Aauth.Proofs.AgentCalls
import Aauth.Proofs.AgentLoop
import Aauth.Sample.Agent
import Aauth.Proofs.AgentDenials
import Aauth.Proofs.Invalidation
import Aauth.Proofs.OpaqueReplay
import Aauth.Lib.Quoted
import Aauth.Proofs.HeaderParams
import Aauth.Proofs.KeyBinding
import Aauth.Proofs.Substitution
import Aauth.Proofs.SignedRequests
import Aauth.Proofs.SignatureLabels
import Aauth.Proofs.OpaqueTransport
import Aauth.Proofs.DeferredPolling
import Aauth.Ref.Metadata
import Aauth.Proofs.FetcherCalls
import Aauth.Proofs.FetchRate
import Aauth.Proofs.GrantDelivery
import Aauth.Proofs.JwksAge
import Aauth.Proofs.CodeText
import Aauth.Proofs.FailedVisits
import Aauth.Proofs.PostBodies
import Aauth.Proofs.CachedTokens
import Aauth.Sample.Exchange
import Aauth.Lib.Deadline
import Aauth.Proofs.GeneratedCodes
import Aauth.Proofs.TokenLookup
import Aauth.Ref.AccessPoll
import Aauth.Proofs.Deadlines
import Aauth.Proofs.AccessPolling
import Aauth.Proofs.RequestUrls
import Aauth.Proofs.Delegation
import Aauth.Proofs.TokenExpiry
import Aauth.Proofs.Prompts
import Aauth.Lib.UriRef
import Aauth.Proofs.Locations
import Aauth.Lib.WebUrl
import Aauth.Proofs.PendingOrigin
import Aauth.Proofs.SingleUse
import Aauth.Proofs.AgentIds
import Aauth.Lib.StructuredField
import Aauth.Proofs.Capabilities
import Aauth.Proofs.SignatureHeaders
import Aauth.Proofs.PendingBodies
import Aauth.Proofs.ServerIds
import Aauth.Proofs.HonestRun
import Aauth.Lib.Contract
import Aauth.Lib.Registry
import Aauth.Proofs.Answers
import Aauth.Proofs.ClaimsWire
import Aauth.Proofs.Isolation
import Aauth.Proofs.OpaqueStore
import Aauth.Proofs.PersonAnswers
import Aauth.Proofs.ServerAnswers
import Aauth.Lib.Front
import Aauth.Proofs.ExchangeRun
import Aauth.Proofs.SigningMiddleware
import Aauth.Proofs.SignedExchange
import Aauth.Proofs.FederatedExchange
import Aauth.Proofs.PersonLinks
