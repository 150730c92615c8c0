import AeepRouter.Store.Exclusion
import AeepRouter.Store.RefundBound
import AeepRouter.Lib.Account
import AeepRouter.Store.Committed
import AeepRouter.Lib.Noninterference
import AeepRouter.Store.KeySpaces
import AeepRouter.Lib.Audit
import AeepRouter.Store.Chains
import AeepRouter.Assessment.Records
import AeepRouter.Attempt.Records
import AeepRouter.Attempt.Capacity
import AeepRouter.Attempt.Available
import AeepRouter.Attempt.Step
import AeepRouter.Attempt.Bindings
import AeepRouter.Attempt.Allowance
import AeepRouter.Entitlement.Conservation
import AeepRouter.X402.Batch
import AeepRouter.Assessment.Repository
import AeepRouter.Lib.Lineage
import AeepRouter.Assessment.Step
import AeepRouter.Assessment.Authority
import AeepRouter.Assessment.Budget
import AeepRouter.Lib.JsonSchema
import AeepRouter.Stack.Compatibility
import AeepRouter.Lib.Layers
import AeepRouter.Lib.Search
import AeepRouter.Stack.Goal
import AeepRouter.Stack.Limits
import AeepRouter.Stack.Planning
import AeepRouter.Stack.Assignment
import AeepRouter.Stack.Optimal
import AeepRouter.Stack.Runs
import AeepRouter.Stack.Holder
import AeepRouter.Lib.Forest
import AeepRouter.Stack.Successors
import AeepRouter.Store.InStep
import AeepRouter.Store.KeyedActions
import AeepRouter.Workflow.Request
import AeepRouter.Workflow.Execution
import AeepRouter.Workflow.Merges
import AeepRouter.Workflow.Sessions
import AeepRouter.Router.Charges
import AeepRouter.Router.RecoveredCharges
import AeepRouter.Lib.Process
import AeepRouter.Router.World
import AeepRouter.Router.Payments
import AeepRouter.Router.Decisions
import AeepRouter.Economic.TrustStore
import AeepRouter.Assessment.Admissions
import AeepRouter.Assessment.Jobs
import AeepRouter.Store.Quotes
import AeepRouter.Router.Candidates
import AeepRouter.Assessment.Refit
import AeepRouter.Benchmark.Resumption
import AeepRouter.Lib.Binary
import AeepRouter.Workflow.Budget
import AeepRouter.Workflow.Costs
import AeepRouter.Workflow.Spending
import AeepRouter.Economic.CashResolution
import AeepRouter.Lib.Dictionary
import AeepRouter.Market.Books
import AeepRouter.Payments.Failures
import AeepRouter.Payments.Refunds
import AeepRouter.Policy.Constraints
import AeepRouter.Policy.Feasibility
import AeepRouter.Benchmark.Ceiling
import AeepRouter.Lib.Retention
import AeepRouter.Package.Attestation
import AeepRouter.Package.Repetition
import AeepRouter.Package.Candidates
import AeepRouter.Package.Qualification
import AeepRouter.Task.Lifecycle
import AeepRouter.Task.Permission
import AeepRouter.Assessment.Identities
import AeepRouter.Assessment.Snapshot
import AeepRouter.Capacity.Observations
import AeepRouter.Economic.DecimalText
import AeepRouter.Economic.Disclosure
import AeepRouter.Economic.PricingBounds
import AeepRouter.Entitlement.Authority
import AeepRouter.Router.Billing
import AeepRouter.Stack.Amendments
import AeepRouter.Lib.Objects
import AeepRouter.Workflow.Bindings
import AeepRouter.Assessment.Coverage
import AeepRouter.Benchmark.Oracles
import AeepRouter.Economic.Aggregation
import AeepRouter.Economic.CashReport
import AeepRouter.Economic.ModelPricing
import AeepRouter.Economic.Receipts
import AeepRouter.Economic.TrustMerge
import AeepRouter.Estimator.Estimates
import AeepRouter.Estimator.History
import AeepRouter.Lib.Keyset
import AeepRouter.Router.Scans
import AeepRouter.Artifacts.Download
import AeepRouter.Assessment.Costs
import AeepRouter.Assessment.Recipes
import AeepRouter.Economic.CompositeQuotes
import AeepRouter.Economic.MarketAggregates
import AeepRouter.Executors.Parsing
import AeepRouter.Package.Signatures
import AeepRouter.Package.Signing
import AeepRouter.Store.Timestamps
import AeepRouter.Artifacts.Reparse
import AeepRouter.Artifacts.Store
import AeepRouter.Lib.Increasing
import AeepRouter.Policy.Scoring
import AeepRouter.Router.Direct
import AeepRouter.Router.DirectKeys
import AeepRouter.Router.Registry
import AeepRouter.Router.Routing
