import Zyntry.SqlAssertions
import Zyntry.WalletConservation
import Zyntry.LimitInvariant
import Zyntry.ReservationOwnership
import Zyntry.ConcurrentLimits
import Zyntry.ConcurrentWallet
import Zyntry.ConcurrentFinalisation
import Zyntry.Redaction
import Zyntry.InvokeCharging
import Zyntry.PeriodLimits
import Zyntry.Reconciliation
import Zyntry.BudgetAccounting
import Zyntry.BudgetLimit
import Zyntry.RuntimeBudget
import Zyntry.PaymentWebhook
import Zyntry.BilledProvider
import Zyntry.ActionProposals
import Zyntry.CredentialIsolation
import Zyntry.ActionConfirmations
import Zyntry.AdminAuth
import Zyntry.AdminMfa
import Zyntry.ConfirmationOutcome
import Zyntry.ConnectionCache
import Zyntry.ConnectionFlows
import Zyntry.IntegrationRows
import Zyntry.ModeSwitches
import Zyntry.PasswordReset
import Zyntry.RoleHints
import Zyntry.StateBinding
import Zyntry.CancelledBuilds
import Zyntry.CardRedaction
import Zyntry.IdempotentProjects
import Zyntry.InvokeTools
import Zyntry.OutboundRequests
import Zyntry.RuntimeUniqueness
import Zyntry.ToolPolicy
import Zyntry.WriteTools
import Zyntry.BuildLock
import Zyntry.Chunking
import Zyntry.EmbeddingBatches
import Zyntry.RateLimiters
import Zyntry.SecurityCounters
import Zyntry.SecurityScan
import Zyntry.StreamedAnswers
import Zyntry.UploadedDocuments
import Zyntry.WebhookDelivery
import Zyntry.StoredVectors
import Zyntry.ChatExits
import Zyntry.ContextTermination
import Zyntry.IpBans
import Zyntry.FlagCache
import Zyntry.MemoryScopes
import Zyntry.WatcherManager
import Zyntry.WatcherCursor
import Zyntry.CancelledSyncs
import Zyntry.OnboardingCompletion
import Zyntry.OnboardingPlans
import Zyntry.OnboardingRuns
import Zyntry.OnboardingRuntimes
import Zyntry.OnboardingTransitions
import Zyntry.ProviderHealth
import Zyntry.ContextBudgets
import Zyntry.RegisteredModels
import Zyntry.PricingComponents
import Zyntry.PricingSpecificity
import Zyntry.ChunkSizes
import Zyntry.CachedEmbeddings
import Zyntry.CandidateStreams
import Zyntry.AutomaticRouting
import Zyntry.ReferenceScopes
import Zyntry.AdmissionWindows
import Zyntry.OnboardingProviders
import Zyntry.ProviderMessages
import Zyntry.JsonRepair
import Zyntry.CompletionStreams
import Zyntry.OnboardingFailover
import Zyntry.ProviderFunding
import Zyntry.AssistantTurns
import Zyntry.PolicyReconciliation
import Zyntry.FailedToolCalls
import Zyntry.RedactedValues
import Zyntry.OnboardingMessages
import Zyntry.ActionRecords
import Zyntry.WorkflowRuns
import Zyntry.ArgumentGuardrail
import Zyntry.SyncScheduling
import Zyntry.WorkflowScheduling
import Zyntry.MemoryRetention
import Zyntry.AssistantReload
import Zyntry.SourceJoins
import Zyntry.SlidingWindows
import Zyntry.TokenUsage
import Zyntry.AddressTexts
import Zyntry.SecurityPolicies
import Zyntry.RequestFiltering
import Zyntry.JsonSchemas
import Zyntry.OutputGuardrails
import Zyntry.RagCitations
import Zyntry.WebsiteCrawl
import Zyntry.WebsiteSync
import Zyntry.PythonUrls
import Zyntry.WebsiteSources
import Zyntry.ApiKeyAccess
import Zyntry.ApiKeyGrants
import Zyntry.Base64
import Zyntry.EncryptedValues
import Zyntry.StructuredSchemas
