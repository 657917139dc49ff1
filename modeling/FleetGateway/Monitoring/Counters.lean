/-! The counters of `Metrics` as one epoll worker moves them. The process-wide counters are
sums over the workers, so what stands here is this worker's share of them. -/

namespace FleetGateway.Monitoring.Counters

structure EpollWorkerMetrics where
  acceptedConnections : Nat := 0
  requests : Nat := 0
  completedRequests : Nat := 0
  completionQueueDepth : Nat := 0
  completionQueueHighWater : Nat := 0
  deriving DecidableEq

/-- The measured durations themselves are left out; their number is
`durationObservations`. `openConnections` is what was opened less what was closed. -/
structure Metrics where
  acceptedConnections : Nat := 0
  openConnections : Int := 0
  requests : Nat := 0
  blockedRequests : Nat := 0
  parseErrors : Nat := 0
  responseStatusClasses : Nat → Nat := fun _ => 0
  durationObservations : Nat := 0
  worker : EpollWorkerMetrics := {}

def workerSlots : Nat := 256

def Metrics.forWorker (workerId : Nat) (change : EpollWorkerMetrics → EpollWorkerMetrics) (metrics : Metrics) :
    Metrics :=
  if workerId < workerSlots then { metrics with worker := change metrics.worker } else metrics

def Metrics.connectionOpened (workerId : Nat) (metrics : Metrics) : Metrics :=
  Metrics.forWorker workerId
    (fun worker => { worker with acceptedConnections := worker.acceptedConnections + 1 })
    { metrics with
      acceptedConnections := metrics.acceptedConnections + 1
      openConnections := metrics.openConnections + 1 }

def Metrics.connectionClosed (metrics : Metrics) : Metrics :=
  { metrics with openConnections := metrics.openConnections - 1 }

def Metrics.requestStarted (workerId : Nat) (metrics : Metrics) : Metrics :=
  Metrics.forWorker workerId (fun worker => { worker with requests := worker.requests + 1 })
    { metrics with requests := metrics.requests + 1 }

/-- The status classes are 1xx to 5xx at the indices 0 to 4. -/
def countStatus (statusCode : Int) (classes : Nat → Nat) : Nat → Nat :=
  if 100 ≤ statusCode ∧ statusCode < 600 then
    let index := (statusCode / 100 - 1).toNat
    fun other => if other = index then classes other + 1 else classes other
  else classes

def Metrics.requestCompleted (statusCode : Int) (workerId : Nat) (metrics : Metrics) : Metrics :=
  Metrics.forWorker workerId (fun worker => { worker with completedRequests := worker.completedRequests + 1 })
    { metrics with
      responseStatusClasses := countStatus statusCode metrics.responseStatusClasses
      blockedRequests := if statusCode = 429 then metrics.blockedRequests + 1 else metrics.blockedRequests
      durationObservations := metrics.durationObservations + 1 }

def Metrics.completionQueueSize (workerId size : Nat) (metrics : Metrics) : Metrics :=
  Metrics.forWorker workerId
    (fun worker => { worker with
      completionQueueDepth := size
      completionQueueHighWater := max worker.completionQueueHighWater size })
    metrics

def Metrics.parseError (metrics : Metrics) : Metrics :=
  { metrics with parseErrors := metrics.parseErrors + 1 }

/-! Which counter is touched by what. -/

@[simp] theorem openConnections_forWorker (workerId : Nat) (change : EpollWorkerMetrics → EpollWorkerMetrics)
    (metrics : Metrics) : (metrics.forWorker workerId change).openConnections = metrics.openConnections := by
  unfold Metrics.forWorker
  split
  · rfl
  · rfl

@[simp] theorem openConnections_requestStarted (workerId : Nat) (metrics : Metrics) :
    (metrics.requestStarted workerId).openConnections = metrics.openConnections :=
  openConnections_forWorker _ _ _

@[simp] theorem openConnections_requestCompleted (statusCode : Int) (workerId : Nat) (metrics : Metrics) :
    (metrics.requestCompleted statusCode workerId).openConnections = metrics.openConnections :=
  openConnections_forWorker _ _ _

@[simp] theorem openConnections_completionQueueSize (workerId size : Nat) (metrics : Metrics) :
    (metrics.completionQueueSize workerId size).openConnections = metrics.openConnections :=
  openConnections_forWorker _ _ _

@[simp] theorem openConnections_connectionOpened (workerId : Nat) (metrics : Metrics) :
    (metrics.connectionOpened workerId).openConnections = metrics.openConnections + 1 :=
  openConnections_forWorker _ _ _

structure RequestCounts where
  started : Nat
  completed : Nat
  requests : Nat
  observations : Nat
  deriving DecidableEq

def Metrics.requestCounts (metrics : Metrics) : RequestCounts where
  started := metrics.worker.requests
  completed := metrics.worker.completedRequests
  requests := metrics.requests
  observations := metrics.durationObservations

@[simp] theorem requestCounts_connectionOpened (workerId : Nat) (metrics : Metrics) :
    (metrics.connectionOpened workerId).requestCounts = metrics.requestCounts := by
  unfold Metrics.connectionOpened Metrics.forWorker
  split
  · rfl
  · rfl

@[simp] theorem requestCounts_completionQueueSize (workerId size : Nat) (metrics : Metrics) :
    (metrics.completionQueueSize workerId size).requestCounts = metrics.requestCounts := by
  unfold Metrics.completionQueueSize Metrics.forWorker
  split
  · rfl
  · rfl

def RequestCounts.add (begun ended : Nat) (counts : RequestCounts) : RequestCounts where
  started := counts.started + begun
  completed := counts.completed + ended
  requests := counts.requests + begun
  observations := counts.observations + ended

theorem requestCounts_requestStarted (workerId : Nat) (metrics : Metrics) (slot : workerId < workerSlots) :
    (metrics.requestStarted workerId).requestCounts = metrics.requestCounts.add 1 0 := by
  simp only [Metrics.requestStarted, Metrics.forWorker, if_pos slot]
  rfl

theorem requestCounts_requestCompleted (statusCode : Int) (workerId : Nat) (metrics : Metrics)
    (slot : workerId < workerSlots) :
    (metrics.requestCompleted statusCode workerId).requestCounts = metrics.requestCounts.add 0 1 := by
  simp only [Metrics.requestCompleted, Metrics.forWorker, if_pos slot]
  rfl

end FleetGateway.Monitoring.Counters
