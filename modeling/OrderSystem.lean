import OrderSystem.Kit.Run
import OrderSystem.Kit.Txn
import OrderSystem.Kit.Locking
import OrderSystem.Kit.Deadlock
import OrderSystem.Kit.Table
import OrderSystem.Kit.Rpc
import OrderSystem.Kit.Overlay
import OrderSystem.Kit.CacheAside
import OrderSystem.Kit.Lease
import OrderSystem.Kit.Confirms
import OrderSystem.Kit.Ledger
import OrderSystem.Kit.TokenBucket
import OrderSystem.Kit.Doubling
import OrderSystem.Kit.SortedMap
import OrderSystem.Kit.Code
import OrderSystem.Platform
import OrderSystem.InventorySvc.Model
import OrderSystem.InventorySvc.Spec
import OrderSystem.InventorySvc.Conservation
import OrderSystem.InventorySvc.Settlement
import OrderSystem.InventorySvc.Progress
import OrderSystem.InventorySvc.LockOrder
import OrderSystem.InventorySvc.Ledger
import OrderSystem.InventorySvc.Holding
import OrderSystem.OrderSvc.Schema
import OrderSystem.OrderSvc.Service
import OrderSystem.OrderSvc.Workers
import OrderSystem.OrderSvc.DryRun
import OrderSystem.OrderSvc.Spec
import OrderSystem.OrderSvc.Rows
import OrderSystem.OrderSvc.Reliability
import OrderSystem.OrderSvc.FailureTexts
import OrderSystem.Saga.System
import OrderSystem.Saga.Steps
import OrderSystem.Saga.Programs
import OrderSystem.Saga.Broker
import OrderSystem.Saga.Wiring
import OrderSystem.Saga.Knowledge
import OrderSystem.Saga.Agreement
import OrderSystem.Saga.Contents
import OrderSystem.Saga.Pricing
import OrderSystem.Saga.Creation
import OrderSystem.Saga.Control
import OrderSystem.Saga.Failure
import OrderSystem.Saga.Contexts
import OrderSystem.Saga.Timeout
import OrderSystem.Saga.Quiescence
import OrderSystem.Saga.Workers
import OrderSystem.Saga.TaskLeases
import OrderSystem.Saga.OutboxLeases
import OrderSystem.Saga.Publishing
import OrderSystem.Saga.Reconciliation
import OrderSystem.Saga.Repair
import OrderSystem.Saga.Tenants
import OrderSystem.Saga.Monitor
import OrderSystem.Monolith.Model
import OrderSystem.Monolith.Spec
import OrderSystem.Monolith.Stock
import OrderSystem.Monolith.Idempotency
import OrderSystem.Monolith.LockOrder
import OrderSystem.Monolith.Totals
import OrderSystem.Monolith.Lifecycle
import OrderSystem.Monolith.TimeoutWorker
import OrderSystem.Monolith.TimeoutCustody
import OrderSystem.Identity.Model
import OrderSystem.Identity.Accounts
import OrderSystem.Access.Token
import OrderSystem.Access.Gateway
import OrderSystem.Access.Session
import OrderSystem.Products.Cache
import OrderSystem.Page.Orders
import OrderSystem.RateLimit.Limiter
import OrderSystem.RateLimit.Bounds
import OrderSystem.RateLimit.Buckets
import OrderSystem.RateLimit.Recency
import OrderSystem.RateLimit.RetryAfter
import OrderSystem.RateLimit.Invisible
import OrderSystem.Resilience.Breaker
import OrderSystem.Resilience.Opening
import OrderSystem.Resilience.Executor
import OrderSystem.Resilience.Retry
import OrderSystem.Resilience.Budget
import OrderSystem.Backoff
import OrderSystem.Listing
import OrderSystem.Metrics.Recorder
import OrderSystem.Metrics.Registry
import OrderSystem.Metrics.Labels
import OrderSystem.Metrics.Exposition
import OrderSystem.Metrics.Bounds
import OrderSystem.Metrics.Updates
import OrderSystem.Metrics.Histogram
import OrderSystem.Metrics.Series
import OrderSystem.Metrics.Gather
