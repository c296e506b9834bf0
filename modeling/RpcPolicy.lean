import RpcPolicy.Client.Basic
import RpcPolicy.Config.Document
import RpcPolicy.Json.Reader
import RpcPolicy.Json.Writer
import RpcPolicy.Rehearsal.Buckets
import RpcPolicy.Rehearsal.Cursors
import RpcPolicy.Rehearsal.Requests
import RpcPolicy.Rehearsal.Session
import RpcPolicy.Security.Handshake
import RpcPolicy.Proofs.Call.Runs
import RpcPolicy.Proofs.Backoff.Steps
import RpcPolicy.Proofs.Retry.Loop
import RpcPolicy.Proofs.Retry.Nesting
import RpcPolicy.Proofs.Retry.Rounds
import RpcPolicy.Proofs.Call.Clock
import RpcPolicy.Proofs.Call.Deadlines
import RpcPolicy.Proofs.Call.Looks
import RpcPolicy.Proofs.Call.Standstill
import RpcPolicy.Proofs.Call.Ticks
import RpcPolicy.Proofs.Retry.Deadline
import RpcPolicy.Proofs.Retry.Stages
import RpcPolicy.Proofs.Number.Nonneg
import RpcPolicy.Proofs.Number.Error
import RpcPolicy.Proofs.TokenBucket.Sound
import RpcPolicy.Proofs.Pipeline.Acts
import RpcPolicy.Proofs.Pipeline.Attempt
import RpcPolicy.Proofs.Pipeline.Order
import RpcPolicy.Proofs.Retry.Blocks
import RpcPolicy.Proofs.TokenBucket.Rate
import RpcPolicy.Proofs.TokenBucket.Slips
import RpcPolicy.Proofs.TokenBucket.Deletions
import RpcPolicy.Proofs.Client.Bounded
import RpcPolicy.Proofs.Client.Dead
import RpcPolicy.Proofs.Backoff.Course
import RpcPolicy.Proofs.Backoff.Bounds
import RpcPolicy.Proofs.Number.Decimals
import RpcPolicy.Proofs.Number.Signed
import RpcPolicy.Proofs.Number.Whole
import RpcPolicy.Proofs.Json.Words
import RpcPolicy.Proofs.Json.RoundTrip
import RpcPolicy.Proofs.Config.RoundTrip
import RpcPolicy.Proofs.Limits.Attempt
import RpcPolicy.Proofs.Limits.Retries
import RpcPolicy.Proofs.Limits.Client
import RpcPolicy.Proofs.Call.Moves
import RpcPolicy.Proofs.Sharing.Bundles
import RpcPolicy.Proofs.Sharing.Runs
import RpcPolicy.Proofs.Sharing.Isolation
import RpcPolicy.Proofs.TokenBucket.Burst
import RpcPolicy.Proofs.Call.Progress
import RpcPolicy.Proofs.Retry.Course
import RpcPolicy.Proofs.Seeds.Calls
import RpcPolicy.Proofs.Client.Handover
import RpcPolicy.Proofs.Client.Received
import RpcPolicy.Proofs.Config.Assembly
import RpcPolicy.Proofs.Config.Partial
import RpcPolicy.Proofs.Security.Material
import RpcPolicy.Proofs.Streaming.Client
import RpcPolicy.Proofs.Call.Chains
