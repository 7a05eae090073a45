import McpGateway.Proxy.Mediation
import McpGateway.Server.Delegation
import McpGateway.Orchestrator.Safety
import McpGateway.Registration.Gauge
import McpGateway.Registration.Liveness
import McpGateway.Registration.Acknowledgement
import McpGateway.Admin.Servers
import McpGateway.Proxy.SweptServers
import McpGateway.Registration.LeaseRaces
import McpGateway.Registration.Isolation
import McpGateway.Registration.Ownership
import McpGateway.RateLimit.Contention
import McpGateway.Proxy.ClientCaches
import McpGateway.Events.Degradation
import McpGateway.Policy.CallerSchema
import McpGateway.Cmd.Responses
import McpGateway.Cmd.TokenFlow
import McpGateway.Proxy.Ambiguity
import McpGateway.Policy.Tightening
import McpGateway.Proxy.ListedTools
import McpGateway.RateLimit.RetryAfter
import McpGateway.RateLimit.CurrentLimits
import McpGateway.Proxy.SessionAffinity
import McpGateway.Proxy.Replicas
import McpGateway.Proxy.ResourceLookup
import McpGateway.Proxy.ToolCacheRaces
import McpGateway.Proxy.SessionTools
import McpGateway.RateLimit.Middleware
import McpGateway.Proxy.Summaries
import McpGateway.Policy.Dangerous
import McpGateway.Policy.Audit
import McpGateway.Events.ServedSettings
import McpGateway.Proxy.DiscoveryHistory
import McpGateway.Resilience.Attempts
import McpGateway.Resilience.Panics
import McpGateway.Cmd.KeyExpiry
import McpGateway.Events.MetadataReplay
import McpGateway.Registration.HashExact
import McpGateway.Admin.AuditCsv
import McpGateway.Auth.PrefixMatching
import McpGateway.Policy.Invalidation
import McpGateway.Proxy.LegacyNames
import McpGateway.RateLimit.SlidingWindow
import McpGateway.Registration.Convergence
import McpGateway.Server.MetaLimit
import McpGateway.Proxy.DiscoveryDoc
import McpGateway.Orchestrator.Retry
import McpGateway.Proxy.RiskNames
import McpGateway.Store.ILike
import McpGateway.Search.CachedEmbeddings
