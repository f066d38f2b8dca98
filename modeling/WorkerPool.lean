import WorkerPool.Config.Document
import WorkerPool.Metrics.Document
import WorkerPool.Proofs.Alike
import WorkerPool.Proofs.Backoffs
import WorkerPool.Proofs.Cancelling
import WorkerPool.Proofs.Interchange
import WorkerPool.Proofs.Layering
import WorkerPool.Proofs.Nesting
import WorkerPool.Proofs.Pacing
import WorkerPool.Proofs.Planning
import WorkerPool.Proofs.Polling
import WorkerPool.Proofs.Quantities
import WorkerPool.Proofs.Registry
import WorkerPool.Proofs.Tallying
import WorkerPool.Proofs.Thresholds
import WorkerPool.Proofs.Timekeeping
import WorkerPool.Proofs.Validity
import WorkerPool.Proofs.Warnings
import WorkerPool.Proofs.Writing
