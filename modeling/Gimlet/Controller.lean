import Gimlet.Time
import Gimlet.Workqueue

/-!
# The resource-watch controller

`pkg/agent/controller.go`. A controller pairs an informer, whose store mirrors
the watched resources, with a rate-limiting work queue of `Event`s. The
informer's handlers add an event per notification; worker goroutines run
`processNextItem`, which looks the key up in the controller's indexer, applies
the startup filter, calls `eventHandler` and hands its error to `handleErr`.

Each step below is one atomic action of one goroutine. `processNextItem` is cut
at `queue.Get`, at the indexer lookup and at the handler's return; the handler
returns an arbitrary error, chosen by the step's label. `handleErr` and the
deferred `Done` form one step: the only queue operations another goroutine can
place between them (an `Add` of the same item, the waiting loop's re-add) reach
the same state in either order.

The history `trace` records what the code does not keep: which events were
enqueued, dispatched, skipped and handled, and what `handleErr` reported.
-/

namespace Gimlet

/-- The types `getObjectMetaData` switches on, and any other type a watch
source can deliver, such as a `StatefulSet` or the dynamic informer's
`*unstructured.Unstructured`. -/
inductive Kind
  | deployment | replicationController | replicaSet | daemonSet | service | pod | job
  | persistentVolume | nspace | secret | ingress
  | other (name : String)
  deriving DecidableEq, Repr

structure ObjectMeta where
  name : String := ""
  nspace : String := ""
  creationTimestamp : Time := Time.zero
  deriving DecidableEq, Repr

structure Object where
  kind : Kind
  objectMeta : ObjectMeta
  deriving DecidableEq, Repr

def getObjectMetaData : Option Object → ObjectMeta
  | some ⟨.deployment, m⟩ => m
  | some ⟨.replicationController, m⟩ => m
  | some ⟨.replicaSet, m⟩ => m
  | some ⟨.daemonSet, m⟩ => m
  | some ⟨.service, m⟩ => m
  | some ⟨.pod, m⟩ => m
  | some ⟨.job, m⟩ => m
  | some ⟨.persistentVolume, m⟩ => m
  | some ⟨.nspace, m⟩ => m
  | some ⟨.secret, m⟩ => m
  | some ⟨.ingress, m⟩ => m
  | _ => {}

def Kind.listed : Kind → Bool
  | .other _ => false
  | _ => true

theorem getObjectMetaData_some (o : Object) :
    getObjectMetaData (some o) = if o.kind.listed then o.objectMeta else {} := by
  obtain ⟨k, m⟩ := o; cases k <;> rfl

/-- `cache.MetaNamespaceKeyFunc`. Every object here has metadata, so the key
function does not fail. -/
def metaNamespaceKeyFunc (o : Object) : String :=
  if o.objectMeta.nspace.length > 0 then o.objectMeta.nspace ++ "/" ++ o.objectMeta.name
  else o.objectMeta.name

/-- What a delete notification carries: the object, or the
`DeletedFinalStateUnknown` tombstone of a delete the watch missed. -/
inductive DeletedObject
  | obj (o : Object)
  | tombstone (key : String) (o : Object)
  deriving DecidableEq, Repr

def deletionHandlingMetaNamespaceKeyFunc : DeletedObject → String
  | .obj o => metaNamespaceKeyFunc o
  | .tombstone key _ => key

/-- A delta the informer pops: `Added`, `Updated`, `Sync` and `Replaced` all
carry the new object; `Deleted` carries the deleted one. -/
inductive Delta
  | upsert (o : Object)
  | deleted (d : DeletedObject)
  deriving DecidableEq, Repr

def Delta.object : Delta → Object
  | .upsert o => o
  | .deleted (.obj o) => o
  | .deleted (.tombstone _ o) => o

structure Event where
  key : String
  eventType : String
  deriving DecidableEq, Repr

def addFunc (obj : Object) : Event := ⟨metaNamespaceKeyFunc obj, "create"⟩

def updateFunc (old _new : Object) : Event := ⟨metaNamespaceKeyFunc old, "update"⟩

def deleteFunc (obj : DeletedObject) : Event := ⟨deletionHandlingMetaNamespaceKeyFunc obj, "delete"⟩

/-- A worker goroutine started by `Run`: `starting` is `wait.Until` before it
checks `stopCh` and calls `runWorker`; `idle` is `runWorker` about to call
`processNextItem`. -/
inductive Worker
  | starting
  | idle
  | got (e : Event)
  | handling (e : Event)
  | exited
  deriving DecidableEq, Repr

def Worker.holds (e : Event) : Worker → Bool
  | .got x => x = e
  | .handling x => x = e
  | _ => false

inductive Phase
  | created
  | syncing
  | running
  | returned
  deriving DecidableEq, Repr

inductive Obs
  | enqueued (e : Event)
  | dispatched (e : Event)
  | skipped (e : Event)
  | invoked (e : Event)
  | returned (e : Event) (err : Option String)
  | handleError (e : Event) (err : String)
  deriving DecidableEq, Repr

structure Controller where
  name : String
  objType : Kind
  /-- The informer's store. -/
  store : String → Option Object
  /-- `none` when `indexer` is the informer's store, as `NewIndexerInformer`
  returns it; otherwise the separate indexer `NewDynamicController` builds. -/
  ownIndexer : Option (String → Option Object)
  queue : RateLimitingQueue Event
  phase : Phase
  threadiness : Nat
  hasSynced : Bool
  stopClosed : Bool
  workers : List Worker
  trace : List Obs

namespace Controller

def newController (name : String) (objType : Kind) : Controller :=
  ⟨name, objType, fun _ => none, none, .empty, .created, 0, false, false, [], []⟩

/-- `NewDynamicController`. The dynamic informer keeps its own store, and the
controller's indexer is a new one that nothing fills. -/
def newDynamicController (name : String) : Controller :=
  ⟨name, .other "Unstructured", fun _ => none, some (fun _ => none), .empty, .created, 0, false,
    false, [], []⟩

def indexerGet (c : Controller) (key : String) : Option Object :=
  match c.ownIndexer with
  | none => c.store key
  | some s => s key

/-- `c.indexer.GetByKey(key)`; the cache's lookup never fails. -/
def getByKey (c : Controller) (key : String) : Except String (Option Object) :=
  .ok (c.indexerGet key)

def applyDelta (store : String → Option Object) : Delta → String → Option Object
  | .upsert o => Function.update store (metaNamespaceKeyFunc o) (some o)
  | .deleted d => Function.update store (deletionHandlingMetaNamespaceKeyFunc d) none

/-- The event the handler adds for a delta: `processDeltas` calls `OnUpdate`
when the store already holds the key, `OnAdd` otherwise. -/
def deltaEvent (store : String → Option Object) : Delta → Event
  | .upsert o =>
    match store (metaNamespaceKeyFunc o) with
    | some old => updateFunc old o
    | none => addFunc o
  | .deleted d => deleteFunc d

/-- The informer's `processDeltas` for one delta: the store first, then the
handler, which adds the event to the queue. -/
def handleDelta (c : Controller) (d : Delta) : Controller :=
  let e := deltaEvent c.store d
  { c with store := applyDelta c.store d, queue := c.queue.add e, trace := c.trace ++ [.enqueued e] }

section
variable (c : Controller) (d : Delta)

@[simp] theorem handleDelta_queue : (c.handleDelta d).queue = c.queue.add (deltaEvent c.store d) := rfl
@[simp] theorem handleDelta_store : (c.handleDelta d).store = applyDelta c.store d := rfl
@[simp] theorem handleDelta_trace :
    (c.handleDelta d).trace = c.trace ++ [.enqueued (deltaEvent c.store d)] := rfl
@[simp] theorem handleDelta_workers : (c.handleDelta d).workers = c.workers := rfl
@[simp] theorem handleDelta_phase : (c.handleDelta d).phase = c.phase := rfl
@[simp] theorem handleDelta_stopClosed : (c.handleDelta d).stopClosed = c.stopClosed := rfl
@[simp] theorem handleDelta_ownIndexer : (c.handleDelta d).ownIndexer = c.ownIndexer := rfl

end

def handleErr (q : RateLimitingQueue Event) (err : Option String) (key : Event) :
    RateLimitingQueue Event × Option String :=
  match err with
  | none => (q.forget key, none)
  | some m => if q.numRequeues key < 5 then (q.addRateLimited key, none) else (q.forget key, some m)

section
variable (q : RateLimitingQueue Event) (err : Option String) (key : Event)

@[simp] theorem handleErr_queue : (handleErr q err key).1.queue = q.queue := by
  unfold handleErr; split <;> (try split) <;> simp
@[simp] theorem handleErr_dirty : (handleErr q err key).1.dirty = q.dirty := by
  unfold handleErr; split <;> (try split) <;> simp
@[simp] theorem handleErr_processing : (handleErr q err key).1.processing = q.processing := by
  unfold handleErr; split <;> (try split) <;> simp
@[simp] theorem handleErr_shuttingDown : (handleErr q err key).1.shuttingDown = q.shuttingDown := by
  unfold handleErr; split <;> (try split) <;> simp

theorem handleErr_wf (hq : q.WF) : (handleErr q err key).1.WF := by
  unfold handleErr; split <;> (try split)
  · exact RateLimitingQueue.forget_wf hq key
  · exact RateLimitingQueue.addRateLimited_wf hq key
  · exact RateLimitingQueue.forget_wf hq key

end

def skip (c : Controller) (w : Nat) (e : Event) : Controller :=
  { c with queue := c.queue.done e, workers := c.workers.set w .idle,
           trace := c.trace ++ [.skipped e] }

/-- `processNextItem`, from the indexer lookup to the handler call. -/
def lookup (c : Controller) (serverStartTime : Time) (w : Nat) : Option Controller :=
  match c.workers[w]? with
  | some (.got e) =>
    match c.getByKey e.key with
    | .error _ => some (c.skip w e)
    | .ok obj =>
      let objectMeta := getObjectMetaData obj
      if e.eventType = "create" ∧
          Duration.seconds (objectMeta.creationTimestamp.sub serverStartTime) < 0 then
        some (c.skip w e)
      else some { c with workers := c.workers.set w (.handling e), trace := c.trace ++ [.invoked e] }
  | _ => none

def finish (c : Controller) (w : Nat) (err : Option String) : Option Controller :=
  match c.workers[w]? with
  | some (.handling e) =>
    let r := handleErr c.queue err e
    some { c with queue := r.1.done e, workers := c.workers.set w .idle,
                  trace := c.trace ++ .returned e err :: (r.2.map (.handleError e)).toList }
  | _ => none

/-- `processNextItem` up to `queue.Get`; on `quit` `runWorker` returns to
`wait.Until`. -/
def get (c : Controller) (w : Nat) : Option Controller :=
  match c.workers[w]? with
  | some .idle =>
    match c.queue.get with
    | some (some e, q) =>
      some { c with queue := q, workers := c.workers.set w (.got e),
                    trace := c.trace ++ [.dispatched e] }
    | some (none, q) => some { c with queue := q, workers := c.workers.set w .starting }
    | none => none
  | _ => none

/-- `wait.Until` checks `stopCh` before each call of `runWorker`. -/
def workerStart (c : Controller) (w : Nat) : Option Controller :=
  match c.workers[w]? with
  | some .starting =>
    some { c with workers := c.workers.set w (if c.stopClosed then .exited else .idle) }
  | _ => none

inductive Label
  /-- `Run(threadiness, stopCh)` records `serverStartTime = now` and starts the informer. -/
  | run (now : Time) (threadiness : Nat)
  /-- The informer has processed its initial list. -/
  | sync
  /-- `WaitForCacheSync` returned true and `Run` started the workers. -/
  | startWorkers
  /-- `WaitForCacheSync` returned false: `Run` returns, shutting the queue down. -/
  | abort
  /-- `stopCh` is closed. -/
  | stop
  /-- `<-stopCh` returned: `Run` returns, shutting the queue down. -/
  | stopRun
  | deliver (d : Delta)
  | workerStart (w : Nat)
  | get (w : Nat)
  | lookup (w : Nat)
  | finish (w : Nat) (err : Option String)
  /-- The delaying queue's waiting loop adds `e`. -/
  | fire (e : Event)
  deriving DecidableEq, Repr

def step (c : Controller) (serverStartTime : Time) : Label → Option Controller
  | .run _ n => if c.phase = .created then some { c with phase := .syncing, threadiness := n } else none
  | .sync => if c.phase ≠ .created ∧ c.hasSynced = false then some { c with hasSynced := true } else none
  | .startWorkers =>
    if c.phase = .syncing ∧ c.hasSynced = true then
      some { c with phase := .running, workers := List.replicate c.threadiness .starting }
    else none
  | .abort =>
    if c.phase = .syncing ∧ c.stopClosed = true then
      some { c with phase := .returned, queue := c.queue.shutDown }
    else none
  | .stop => if c.stopClosed = false then some { c with stopClosed := true } else none
  | .stopRun =>
    if c.phase = .running ∧ c.stopClosed = true then
      some { c with phase := .returned, queue := c.queue.shutDown }
    else none
  | .deliver d => if c.phase ≠ .created ∧ d.object.kind = c.objType then some (c.handleDelta d) else none
  | .workerStart w => c.workerStart w
  | .get w => c.get w
  | .lookup w => c.lookup serverStartTime w
  | .finish w err => c.finish w err
  | .fire e => (c.queue.fire e).map fun q => { c with queue := q }

/-! ## What each action can do -/

section
variable {c c' : Controller} {t : Time} {w : Nat}

theorem get_eq_some (h : c.get w = some c') :
    c.workers[w]? = some .idle ∧
    ((∃ e q, c.queue.get = some (some e, q) ∧
      c' = { c with queue := q, workers := c.workers.set w (.got e),
                    trace := c.trace ++ [.dispatched e] }) ∨
     (∃ q, c.queue.get = some (none, q) ∧ c' = { c with queue := q, workers := c.workers.set w .starting })) := by
  unfold get at h
  split at h
  · refine ⟨‹_›, ?_⟩
    split at h
    · exact .inl ⟨_, _, ‹_›, (Option.some.inj h).symm⟩
    · exact .inr ⟨_, ‹_›, (Option.some.inj h).symm⟩
    · cases h
  · cases h

theorem lookup_of_got {e : Event} (hw : c.workers[w]? = some (.got e)) :
    c.lookup t w = some (if e.eventType = "create" ∧
        (getObjectMetaData (c.indexerGet e.key)).creationTimestamp.before t = true then c.skip w e
      else { c with workers := c.workers.set w (.handling e), trace := c.trace ++ [.invoked e] }) := by
  simp only [lookup, hw, getByKey, Time.seconds_sub_neg_iff]
  split_ifs <;> rfl

theorem lookup_eq_some (h : c.lookup t w = some c') :
    ∃ e, c.workers[w]? = some (.got e) ∧
      (c' = c.skip w e ∨
       c' = { c with workers := c.workers.set w (.handling e), trace := c.trace ++ [.invoked e] }) := by
  cases hw : c.workers[w]? with
  | none => simp [lookup, hw] at h
  | some x =>
    cases x with
    | got e =>
      rw [lookup_of_got hw] at h
      refine ⟨e, rfl, ?_⟩
      split_ifs at h
      · exact .inl (Option.some.inj h).symm
      · exact .inr (Option.some.inj h).symm
    | _ => simp [lookup, hw] at h

theorem finish_eq_some {err : Option String} (h : c.finish w err = some c') :
    ∃ e, c.workers[w]? = some (.handling e) ∧
      c' = { c with queue := (handleErr c.queue err e).1.done e, workers := c.workers.set w .idle,
                    trace := c.trace ++ .returned e err ::
                      ((handleErr c.queue err e).2.map (.handleError e)).toList } := by
  unfold finish at h
  split at h
  · exact ⟨_, ‹_›, (Option.some.inj h).symm⟩
  · cases h

theorem workerStart_eq_some (h : c.workerStart w = some c') :
    c.workers[w]? = some .starting ∧
      c' = { c with workers := c.workers.set w (if c.stopClosed then .exited else .idle) } := by
  unfold workerStart at h
  split at h
  · exact ⟨‹_›, (Option.some.inj h).symm⟩
  · cases h

end

end Controller

end Gimlet
