import Gimlet.Agent

/-!
# What every reachable controller satisfies

The work queue keeps its own invariant; `processing` is exactly the set of
items the workers hold, each held by one worker; there are no workers before
`Run` has synced; and the queue is shut down exactly when `Run` has returned,
which it does only once `stopCh` is closed.

What follows from it: deduplication is per item, not per key; the dynamic
controller's indexer never fills; and `Run` returns only once `stopCh` is
closed, without waiting for its workers.
-/

namespace Gimlet

open Controller

theorem countP_set_of_getElem? {α : Type} {l : List α} {w : Nat} {x : α} (h : l[w]? = some x)
    (p : α → Bool) (a : α) :
    (l.set w a).countP p = l.countP p - (if p x then 1 else 0) + (if p a then 1 else 0) := by
  obtain ⟨hw, rfl⟩ := List.getElem?_eq_some_iff.mp h
  exact List.countP_set p l w a hw

theorem count_set_of_getElem? {α : Type} [BEq α] {l : List α} {w : Nat} {x : α} (h : l[w]? = some x)
    (a b : α) :
    (l.set w a).count b = l.count b - (if x == b then 1 else 0) + (if a == b then 1 else 0) := by
  obtain ⟨hw, rfl⟩ := List.getElem?_eq_some_iff.mp h
  exact List.count_set a b l w hw

def holders (e : Event) (ws : List Worker) : Nat := ws.countP (Worker.holds e)

namespace Controller

structure Inv (c : Controller) : Prop where
  wf : c.queue.WF
  holders_eq : ∀ e, holders e c.workers = if e ∈ c.queue.processing then 1 else 0
  no_workers : c.phase = .created ∨ c.phase = .syncing → c.workers = []
  shuttingDown_iff : c.queue.shuttingDown = true ↔ c.phase = .returned
  stopClosed_of_returned : c.phase = .returned → c.stopClosed = true

variable {c c' : Controller} {t : Time} {w : Nat}

theorem new_inv (h : c.IsNew) : c.Inv := by
  rcases h with ⟨name, k, rfl⟩ | ⟨name, rfl⟩ <;> simp only [newController, newDynamicController] <;>
  exact ⟨RateLimitingQueue.empty_wf, fun e => by simp [holders, RateLimitingQueue.empty],
    fun _ => rfl, by simp [RateLimitingQueue.empty], by simp⟩

theorem Inv.mem_processing (hi : c.Inv) (e : Event) {x : Worker} (hw : c.workers[w]? = some x)
    (hx : x.holds e = true) : e ∈ c.queue.processing := by
  have h := hi.holders_eq e
  have : 0 < holders e c.workers :=
    List.countP_pos_iff.mpr ⟨x, List.getElem?_mem hw, hx⟩
  split_ifs at h with hp
  · exact hp
  · omega

theorem holders_set {ws : List Worker} {x : Worker} (hw : ws[w]? = some x) (e : Event) (a : Worker) :
    holders e (ws.set w a) = holders e ws - (if x.holds e then 1 else 0) + (if a.holds e then 1 else 0) :=
  countP_set_of_getElem? hw _ a

theorem Inv.holders_release (hi : c.Inv) (e : Event) {x : Worker} (hw : c.workers[w]? = some x)
    (hx : x.holds e = true) (y : Event) :
    holders y (c.workers.set w .idle) = if y ∈ c.queue.processing.erase e then 1 else 0 := by
  rw [holders_set hw, hi.holders_eq y, show Worker.holds y .idle = false from rfl]
  by_cases hy : e = y
  · subst hy; simp [hx, hi.mem_processing e hw hx]
  · have : x.holds y = false := by cases x <;> simp_all [Worker.holds]
    simp [this, Finset.mem_erase, Ne.symm hy]

theorem Inv.get (hi : c.Inv) (h : c.get w = some c') : c'.Inv := by
  obtain ⟨hw, ⟨e, q, hq, rfl⟩ | ⟨q, hq, rfl⟩⟩ := get_eq_some h
  · obtain ⟨x, rest, hx, he, rfl⟩ | ⟨-, -, he, -⟩ := RateLimitingQueue.get_eq_some hq
    · obtain rfl : e = x := Option.some.inj he
      have hxp : e ∉ c.queue.processing := ((hi.wf.mem_queue e).mp (by simp [hx])).2
      refine ⟨RateLimitingQueue.get_wf hi.wf hq, fun y => ?_, fun hp => ?_, hi.shuttingDown_iff,
        hi.stopClosed_of_returned⟩
      · rw [holders_set hw, hi.holders_eq y]
        by_cases hy : e = y
        · subst hy; simp [Worker.holds, hxp]
        · simp [Worker.holds, hy, Ne.symm hy]
      · simp [hi.no_workers hp] at hw
    · cases he
  · obtain ⟨_, _, _, he, _⟩ | ⟨-, -, -, rfl⟩ := RateLimitingQueue.get_eq_some hq
    · cases he
    · refine ⟨hi.wf, fun y => ?_, fun hp => ?_, hi.shuttingDown_iff, hi.stopClosed_of_returned⟩
      · rw [holders_set hw, hi.holders_eq y]; simp [Worker.holds]
      · simp [hi.no_workers hp] at hw

theorem Inv.lookup (hi : c.Inv) (h : c.lookup t w = some c') : c'.Inv := by
  obtain ⟨e, hw, rfl | rfl⟩ := lookup_eq_some h
  · have hp := hi.mem_processing e hw (by simp [Worker.holds])
    refine ⟨RateLimitingQueue.done_wf hi.wf hp, fun y => ?_, fun hph => ?_, ?_, ?_⟩
    · simpa [skip] using hi.holders_release e hw (by simp [Worker.holds]) y
    · simp [hi.no_workers hph] at hw
    · simpa [skip] using hi.shuttingDown_iff
    · simpa [skip] using hi.stopClosed_of_returned
  · refine ⟨hi.wf, fun y => ?_, fun hp => ?_, hi.shuttingDown_iff, hi.stopClosed_of_returned⟩
    · rw [holders_set hw, hi.holders_eq y]
      by_cases hy : e = y
      · subst hy; simp [Worker.holds, hi.mem_processing e hw (by simp [Worker.holds])]
      · simp [Worker.holds, hy]
    · simp [hi.no_workers hp] at hw

theorem Inv.finish (hi : c.Inv) {err : Option String} (h : c.finish w err = some c') : c'.Inv := by
  obtain ⟨e, hw, rfl⟩ := finish_eq_some h
  have hp := hi.mem_processing e hw (by simp [Worker.holds])
  refine ⟨RateLimitingQueue.done_wf (handleErr_wf _ _ _ hi.wf) (by simpa using hp), fun y => ?_,
    fun hph => ?_, ?_, ?_⟩
  · simpa using hi.holders_release e hw (by simp [Worker.holds]) y
  · simp [hi.no_workers hph] at hw
  · simpa using hi.shuttingDown_iff
  · exact hi.stopClosed_of_returned

theorem Inv.workerStart (hi : c.Inv) (h : c.workerStart w = some c') : c'.Inv := by
  obtain ⟨hw, rfl⟩ := workerStart_eq_some h
  refine ⟨hi.wf, fun y => ?_, fun hp => ?_, hi.shuttingDown_iff, hi.stopClosed_of_returned⟩
  · rw [holders_set hw, hi.holders_eq y]; cases c.stopClosed <;> simp [Worker.holds]
  · simp [hi.no_workers hp] at hw

theorem Inv.step (hi : c.Inv) {l : Label} (h : c.step t l = some c') : c'.Inv := by
  cases l with
  | run now n =>
    simp only [Controller.step] at h; split_ifs at h with hc; cases h
    exact ⟨hi.wf, hi.holders_eq, fun _ => hi.no_workers (.inl hc),
      by simpa [hc] using hi.shuttingDown_iff, by simp⟩
  | sync =>
    simp only [Controller.step] at h; split_ifs at h; cases h
    exact ⟨hi.wf, hi.holders_eq, hi.no_workers, hi.shuttingDown_iff, hi.stopClosed_of_returned⟩
  | startWorkers =>
    simp only [Controller.step] at h; split_ifs at h with hc; cases h
    have hnil := hi.no_workers (.inr hc.1)
    refine ⟨hi.wf, fun e => ?_, by simp, by simpa [hc.1] using hi.shuttingDown_iff, by simp⟩
    have := hi.holders_eq e
    simp only [hnil, holders, List.countP_nil] at this
    rw [← this]; simp [holders, List.countP_replicate, Worker.holds]
  | abort =>
    simp only [Controller.step] at h; split_ifs at h with hc; cases h
    exact ⟨RateLimitingQueue.shutDown_wf hi.wf, hi.holders_eq, by simp, by simp, fun _ => hc.2⟩
  | stop =>
    simp only [Controller.step] at h; split_ifs at h; cases h
    exact ⟨hi.wf, hi.holders_eq, hi.no_workers, hi.shuttingDown_iff, fun _ => rfl⟩
  | stopRun =>
    simp only [Controller.step] at h; split_ifs at h with hc; cases h
    exact ⟨RateLimitingQueue.shutDown_wf hi.wf, hi.holders_eq, by simp, by simp, fun _ => hc.2⟩
  | deliver d =>
    simp only [Controller.step] at h; split_ifs at h; cases h
    exact ⟨RateLimitingQueue.add_wf hi.wf _, by simpa using hi.holders_eq,
      hi.no_workers, by simpa using hi.shuttingDown_iff, hi.stopClosed_of_returned⟩
  | workerStart w => exact hi.workerStart h
  | get w => exact hi.get h
  | lookup w => exact hi.lookup h
  | finish w err => exact hi.finish h
  | fire e =>
    simp only [Controller.step, Option.map_eq_some'] at h
    obtain ⟨q, hq, rfl⟩ := h
    obtain ⟨-, rfl⟩ := RateLimitingQueue.fire_eq_some hq
    exact ⟨RateLimitingQueue.fire_wf hi.wf hq, by simpa using hi.holders_eq, hi.no_workers,
      by simpa using hi.shuttingDown_iff, hi.stopClosed_of_returned⟩

end Controller

theorem Agent.Reachable.inv {a : Agent} (ha : a.Reachable) : ∀ c ∈ a.controllers, c.Inv :=
  ha.forall_controller _ (fun _ h => new_inv h) fun _ _ _ _ hi h => hi.step h

/-! ## Deduplication is per item, not per key

The queue's items are `Event`s, which Go compares field by field, so a create
and an update of one object are two items. The queue holds each item once and
lends it to one worker at a time; nothing relates two items of one key, and
both can be pending, and be handled, together. -/

def object (k : Kind) (name : String) (t : Int) : Object :=
  ⟨k, { name, nspace := "default", creationTimestamp := ⟨t, 0⟩ }⟩

/-- `Run` at second 10 with two workers, then the pod `web`, created at second
20, is added and updated before any worker dequeues. -/
def createThenUpdate : List (Nat × Label) :=
  [(0, .run ⟨10, 0⟩ 2), (0, .sync), (0, .startWorkers), (0, .workerStart 0), (0, .workerStart 1),
   (0, .deliver (.upsert (object .pod "web" 20))), (0, .deliver (.upsert (object .pod "web" 20)))]

/-- The queue never holds one item twice. -/
theorem queue_nodup {a : Agent} (ha : a.Reachable) {c : Controller} (hc : c ∈ a.controllers) :
    c.queue.queue.Nodup :=
  (ha.inv c hc).wf.nodup

theorem queue_nodup_create_update : ∃ a : Agent, a.Reachable ∧ ∃ c ∈ a.controllers,
    c.queue.queue = [⟨"default/web", "create"⟩, ⟨"default/web", "update"⟩] ∧
    c.queue.queue.Nodup := by
  obtain ⟨a, ha, c, hc, hq⟩ := Agent.exists_reachable_of_run [newController "pods" .pod]
    (by simp [Controller.IsNew]) createThenUpdate
    (fun a => ∃ c ∈ a.controllers,
      c.queue.queue = [⟨"default/web", "create"⟩, ⟨"default/web", "update"⟩]) (by decide)
  exact ⟨a, ha, c, hc, hq, queue_nodup ha hc⟩

/-- At most one worker is inside `eventHandler` on a given item. -/
theorem handling_count_le_one {a : Agent} (ha : a.Reachable) {c : Controller}
    (hc : c ∈ a.controllers) (e : Event) : c.workers.count (.handling e) ≤ 1 := by
  have h := (ha.inv c hc).holders_eq e
  have hle : c.workers.count (.handling e) ≤ holders e c.workers :=
    List.countP_mono_left fun x _ hx => by cases x <;> simp_all [Worker.holds]
  split_ifs at h <;> omega

theorem handling_count_le_one_create_update : ∃ a : Agent, a.Reachable ∧ ∃ c ∈ a.controllers,
    c.workers = [.handling ⟨"default/web", "create"⟩, .handling ⟨"default/web", "update"⟩] ∧
    c.workers.count (.handling ⟨"default/web", "create"⟩) ≤ 1 := by
  obtain ⟨a, ha, c, hc, hw⟩ := Agent.exists_reachable_of_run [newController "pods" .pod]
    (by simp [Controller.IsNew])
    (createThenUpdate ++ [(0, .get 0), (0, .get 1), (0, .lookup 0), (0, .lookup 1)])
    (fun a => ∃ c ∈ a.controllers,
      c.workers = [.handling ⟨"default/web", "create"⟩, .handling ⟨"default/web", "update"⟩])
    (by decide)
  exact ⟨a, ha, c, hc, hw, handling_count_le_one ha hc _⟩

theorem create_update_pending : ∃ a : Agent, a.Reachable ∧ ∃ c ∈ a.controllers,
    c.queue.queue = [⟨"default/web", "create"⟩, ⟨"default/web", "update"⟩] :=
  Agent.exists_reachable_of_run [newController "pods" .pod] (by simp [Controller.IsNew])
    createThenUpdate _ (by decide)

theorem create_update_handled_together : ∃ a : Agent, a.Reachable ∧ ∃ c ∈ a.controllers,
    c.workers = [.handling ⟨"default/web", "create"⟩, .handling ⟨"default/web", "update"⟩] :=
  Agent.exists_reachable_of_run [newController "pods" .pod] (by simp [Controller.IsNew])
    (createThenUpdate ++ [(0, .get 0), (0, .get 1), (0, .lookup 0), (0, .lookup 1)]) _ (by decide)

/-! ## The dynamic controller's indexer

`NewDynamicController` gives the controller `cache.NewIndexer(...)`, a store of
its own, while the dynamic informer fills the store of `informer.GetIndexer()`.
Nothing writes the controller's store, so every lookup misses: the indexer
does not follow the notifications at all. -/

theorem step_ownIndexer {c c' : Controller} {t : Time} {l : Label} (h : c.step t l = some c') :
    c'.ownIndexer = c.ownIndexer := by
  cases l with
  | workerStart w => obtain ⟨-, rfl⟩ := workerStart_eq_some h; rfl
  | get w => obtain ⟨-, ⟨_, _, -, rfl⟩ | ⟨_, -, rfl⟩⟩ := get_eq_some h <;> rfl
  | lookup w => obtain ⟨_, -, rfl | rfl⟩ := lookup_eq_some h <;> rfl
  | finish w err => obtain ⟨_, -, rfl⟩ := finish_eq_some h; rfl
  | fire e =>
    simp only [Controller.step, Option.map_eq_some'] at h
    obtain ⟨_, -, rfl⟩ := h; rfl
  | deliver d => simp only [Controller.step] at h; split_ifs at h; cases h; rfl
  | _ => simp only [Controller.step] at h; split_ifs at h; cases h; rfl

/-- A controller built by `NewDynamicController` finds no object for any key,
in every reachable state. -/
theorem dynamic_indexerGet {a : Agent} (ha : a.Reachable) {c : Controller} (hc : c ∈ a.controllers)
    (hd : c.ownIndexer.isSome) (key : String) : c.indexerGet key = none := by
  have hP := ha.forall_controller (fun c => ∀ s, c.ownIndexer = some s → ∀ k, s k = none)
    (fun c h s hs k => by
      rcases h with ⟨_, _, rfl⟩ | ⟨_, rfl⟩ <;> simp only [newController, newDynamicController,
        Option.some.injEq, reduceCtorEq] at hs
      exact hs ▸ rfl)
    (fun c c' _ _ hP h s hs => hP s ((step_ownIndexer h).symm.trans hs)) c hc
  obtain ⟨s, hs⟩ := Option.isSome_iff_exists.mp hd
  simp [indexerGet, hs, hP s hs key]

theorem dynamic_lookup_after_add : ∃ a : Agent, a.Reachable ∧ ∃ c ∈ a.controllers,
    c.workers[0]? = some (.got ⟨"default/web", "create"⟩) ∧ c.indexerGet "default/web" = none ∧
    c.trace = [.enqueued ⟨"default/web", "create"⟩, .dispatched ⟨"default/web", "create"⟩] :=
  Agent.exists_reachable_of_run [newDynamicController "webs"] (by simp [Controller.IsNew])
    [(0, .run ⟨10, 0⟩ 1), (0, .sync), (0, .startWorkers), (0, .workerStart 0),
     (0, .deliver (.upsert (object (.other "Unstructured") "web" 20))), (0, .get 0)] _ (by decide)

/-! ## When `Run` returns

`Run` returns after `<-stopCh`, or when `WaitForCacheSync` gives up, which it
does only once `stopCh` is closed; its deferred `ShutDown` then stops the
queue. It does not wait for the workers it started. -/

theorem run_returned_stopped {a : Agent} (ha : a.Reachable) {c : Controller}
    (hc : c ∈ a.controllers) (h : c.phase = .returned) :
    c.stopClosed = true ∧ c.queue.shuttingDown = true :=
  ⟨(ha.inv c hc).stopClosed_of_returned h, (ha.inv c hc).shuttingDown_iff.mpr h⟩

def stopDuringHandler : List (Nat × Label) :=
  [(0, .run ⟨10, 0⟩ 1), (0, .sync), (0, .startWorkers), (0, .workerStart 0),
   (0, .deliver (.upsert (object .pod "web" 20))), (0, .get 0), (0, .lookup 0), (0, .stop),
   (0, .stopRun)]

theorem run_returned_stopped_pods : ∃ a : Agent, a.Reachable ∧ ∃ c ∈ a.controllers,
    c.phase = .returned ∧ c.stopClosed = true ∧ c.queue.shuttingDown = true := by
  obtain ⟨a, ha, c, hc, hp⟩ := Agent.exists_reachable_of_run [newController "pods" .pod]
    (by simp [Controller.IsNew]) stopDuringHandler (fun a => ∃ c ∈ a.controllers, c.phase = .returned)
    (by decide)
  have h := run_returned_stopped ha hc hp
  exact ⟨a, ha, c, hc, hp, h⟩

theorem run_returns_during_handler : ∃ a : Agent, a.Reachable ∧ ∃ c ∈ a.controllers,
    c.phase = .returned ∧ c.workers = [.handling ⟨"default/web", "create"⟩] :=
  Agent.exists_reachable_of_run [newController "pods" .pod] (by simp [Controller.IsNew])
    stopDuringHandler _ (by decide)

end Gimlet
