import Mathlib.Logic.Relation
import Gimlet.Retry

/-!
# What the queue delivers

Followed for one item `e`, the work queue behind `processNextItem` neither
duplicates nor loses notifications. Every dispatch of `e` is paid for by a
notification that added `e` or by a failed handler call that `handleErr` re-added
through the rate limiter, and the handler runs only on dispatched items. A
notification that arrives after `e`'s last dispatch is never dropped while the
queue runs: `e` is queued, or its worker's `Done` puts it back. Once the queue
is shut down, the workers only drain it: each item is dispatched at most once
more, and only if it was pending at the shutdown.
-/

namespace Gimlet

/-! ## What the queue still owes an item -/

namespace RateLimitingQueue

variable {α : Type} [DecidableEq α]

/-- Dispatches the queue owes `x`: one for a pending add (`dirty`), one for a
rate-limited re-add the waiting loop still holds. -/
def owed (q : RateLimitingQueue α) (x : α) : Nat :=
  (if x ∈ q.dirty then 1 else 0) + (if x ∈ q.waiting then 1 else 0)

theorem indicator_le_add {p q r : Prop} [Decidable p] [Decidable q] [Decidable r] (h : p → q ∨ r) :
    (if p then 1 else 0) ≤ (if q then 1 else 0) + (if r then 1 else 0) := by
  by_cases hp : p
  · rcases h hp with h' | h' <;> simp [hp, h']
  · simp [hp]

section
variable (q : RateLimitingQueue α) (x y : α)

@[simp] theorem owed_shutDown : q.shutDown.owed y = q.owed y := rfl

@[simp] theorem owed_forget : (q.forget x).owed y = q.owed y := rfl

@[simp] theorem owed_done : (q.done x).owed y = q.owed y := by
  simp only [owed, done_dirty, done_waiting]

theorem owed_add : (q.add x).owed y ≤ q.owed y + if x = y then 1 else 0 := by
  have := indicator_le_add fun h => ((mem_add_dirty q x y).mp h).imp_right fun h' => h'.1.symm
  unfold owed; rw [add_waiting]; omega

theorem owed_addRateLimited : (q.addRateLimited x).owed y ≤ q.owed y + if x = y then 1 else 0 := by
  have := indicator_le_add fun h => ((mem_addRateLimited_waiting q x y).mp h).imp_right fun h' => h'.1.symm
  unfold owed; rw [addRateLimited_dirty]; omega

end

theorem owed_of_entry {q q' : RateLimitingQueue α} {y : α} (h : q'.entry y = q.entry y) :
    q'.owed y = q.owed y := by
  simp only [entry, Entry.mk.injEq, decide_eq_decide] at h
  simp only [owed, h.2.1, h.2.2.2.1]

theorem owed_get {q q' : RateLimitingQueue α} {x : α} (hq : q.WF) (h : q.get = some (some x, q'))
    (y : α) : q'.owed y + (if x = y then 1 else 0) = q.owed y := by
  by_cases hxy : x = y
  · subst hxy
    obtain ⟨z, rest, hz, hx, rfl⟩ | ⟨-, -, hx, -⟩ := get_eq_some h
    · obtain rfl : x = z := Option.some.inj hx
      have hd : x ∈ q.dirty := ((hq.mem_queue x).mp (by simp [hz])).1
      simp [owed, hd, Nat.add_comm]
    · cases hx
  · rw [owed_of_entry (entry_get_ne h (Ne.symm hxy)), if_neg hxy, Nat.add_zero]

theorem owed_fire {q q' : RateLimitingQueue α} {x : α} (h : q.fire x = some q') (y : α) :
    q'.owed y ≤ q.owed y := by
  by_cases hxy : y = x
  · subst hxy
    obtain ⟨hx, rfl⟩ := fire_eq_some h
    have := owed_add { q with waiting := q.waiting.erase y } y y
    simp only [owed, Finset.mem_erase, ne_eq, not_true_eq_false, false_and, if_false, hx,
      if_true, Nat.add_zero] at this ⊢
    split_ifs at this ⊢ <;> omega
  · exact (owed_of_entry (entry_fire_ne h hxy)).le

theorem owed_handleErr (q : RateLimitingQueue Event) (err : Option String) (x y : Event) :
    (Controller.handleErr q err x).1.owed y ≤ q.owed y + if x = y ∧ err.isSome then 1 else 0 := by
  unfold Controller.handleErr
  split
  · simp
  · split
    · simpa using owed_addRateLimited q x y
    · simp

end RateLimitingQueue

/-! ## No duplicated dispatch -/

def enqueues (e : Event) (tr : List Obs) : Nat := tr.count (.enqueued e)

def failedResults (e : Event) (tr : List Obs) : Nat := (results e tr).countP Option.isSome

@[simp] theorem enqueues_append (e : Event) (tr tr' : List Obs) :
    enqueues e (tr ++ tr') = enqueues e tr + enqueues e tr' := List.count_append ..

@[simp] theorem enqueues_nil (e : Event) : enqueues e [] = 0 := rfl

@[simp] theorem failedResults_nil (e : Event) : failedResults e [] = 0 := rfl

@[simp] theorem failedResults_append (e : Event) (tr tr' : List Obs) :
    failedResults e (tr ++ tr') = failedResults e tr + failedResults e tr' := by
  simp [failedResults, List.countP_append]

namespace Controller

open RateLimitingQueue

/-- The delivery bounds for `e`: the handler runs only on dispatched items, and
each dispatch is paid for by a notification or by a failed call. -/
structure Delivered (c : Controller) (e : Event) : Prop where
  invoked_le : invocations e c.trace + c.workers.count (.got e) ≤ dispatches e c.trace
  dispatched_le : dispatches e c.trace + c.queue.owed e ≤ enqueues e c.trace + failedResults e c.trace

variable {c c' : Controller} {t : Time} {e : Event}

theorem Delivered.of_append (hd : c.Delivered e) (tl : List Obs) (htr : c'.trace = c.trace ++ tl)
    (h₁ : invocations e tl + c'.workers.count (.got e) ≤ c.workers.count (.got e) + dispatches e tl)
    (h₂ : dispatches e tl + c'.queue.owed e ≤ c.queue.owed e + enqueues e tl + failedResults e tl) :
    c'.Delivered e := by
  obtain ⟨h₃, h₄⟩ := hd
  constructor <;> simp only [htr, invocations_append, dispatches_append, enqueues_append,
    failedResults_append] <;> omega

theorem finish_counts (x e : Event) (err r : Option String) :
    invocations e (.returned x err :: (r.map (.handleError x)).toList) = 0 ∧
    dispatches e (.returned x err :: (r.map (.handleError x)).toList) = 0 ∧
    enqueues e (.returned x err :: (r.map (.handleError x)).toList) = 0 ∧
    failedResults e (.returned x err :: (r.map (.handleError x)).toList) =
      if x = e ∧ err.isSome then 1 else 0 := by
  cases r <;> by_cases hx : x = e <;> cases err <;> simp [hx, enqueues, failedResults]

theorem new_delivered (h : c.IsNew) : c.Delivered e := by
  rcases h with ⟨name, k, rfl⟩ | ⟨name, rfl⟩ <;>
  exact ⟨by simp [newController, newDynamicController, invocations, dispatches],
    by simp [newController, newDynamicController, owed, RateLimitingQueue.empty]⟩

theorem Delivered.step (hi : c.Inv) (hd : c.Delivered e) {l : Label} (h : c.step t l = some c') :
    c'.Delivered e := by
  cases l with
  | deliver d =>
    simp only [Controller.step] at h; split_ifs at h; cases h
    refine hd.of_append _ rfl (by simp [invocations]) ?_
    have := owed_add c.queue (deltaEvent c.store d) e
    simp [enqueues, failedResults, dispatches, List.count_cons]
    omega
  | get w =>
    obtain ⟨hw, ⟨x, q, hq, rfl⟩ | ⟨q, hq, rfl⟩⟩ := get_eq_some h
    · have := owed_get hi.wf hq e
      refine hd.of_append _ rfl (by simp [count_set_of_getElem? hw]) ?_
      simp [enqueues, failedResults, List.count_cons]; omega
    · obtain rfl := entry_get_none hq
      exact hd.of_append [] (by simp) (by simp [count_set_of_getElem? hw]) (by simp)
  | lookup w =>
    obtain ⟨x, hw, rfl | rfl⟩ := lookup_eq_some h
    · refine hd.of_append _ rfl ?_ (by simp [skip, enqueues, failedResults, List.count_cons])
      simp [skip, count_set_of_getElem? hw]
    · have hpos : 0 < c.workers.count (.got x) := List.count_pos_iff.mpr (List.getElem?_mem hw)
      refine hd.of_append _ rfl ?_ (by simp [enqueues, failedResults, List.count_cons])
      by_cases hx : x = e
      · subst hx; simp [count_set_of_getElem? hw]; omega
      · simp [count_set_of_getElem? hw, hx]
  | finish w err =>
    obtain ⟨x, hw, rfl⟩ := finish_eq_some h
    obtain ⟨h₁, h₂, h₃, h₄⟩ := finish_counts x e err (handleErr c.queue err x).2
    have := owed_handleErr c.queue err x e
    refine hd.of_append _ rfl (by simp [h₁, h₂, count_set_of_getElem? hw]) ?_
    simp only [h₂, h₃, h₄, owed_done]
    omega
  | fire x =>
    simp only [Controller.step, Option.map_eq_some'] at h
    obtain ⟨q, hq, rfl⟩ := h
    have := owed_fire hq e
    exact hd.of_append [] (by simp) (by simp) (by simpa using this)
  | workerStart w =>
    obtain ⟨hw, rfl⟩ := workerStart_eq_some h
    exact hd.of_append [] (by simp) (by cases c.stopClosed <;> simp [count_set_of_getElem? hw])
      (by simp)
  | startWorkers =>
    simp only [Controller.step] at h; split_ifs at h; cases h
    exact hd.of_append [] (by simp) (by simp [List.count_replicate]) (by simp)
  | abort | stopRun =>
    simp only [Controller.step] at h; split_ifs at h; cases h
    exact hd.of_append [] (by simp) (by simp) (by simp)
  | run | sync | stop => simp only [Controller.step] at h; split_ifs at h; cases h; exact ⟨hd.1, hd.2⟩

end Controller

open Controller

theorem Agent.Reachable.delivered {a : Agent} (ha : a.Reachable) (e : Event) :
    ∀ c ∈ a.controllers, c.Delivered e := fun c hc =>
  (ha.forall_controller (fun c => c.Inv ∧ c.Delivered e) (fun _ h => ⟨new_inv h, new_delivered h⟩)
    (fun _ _ _ _ hp h => ⟨hp.1.step h, hp.2.step hp.1 h⟩) c hc).2

/-- In every reachable process, with any number of workers and any interleaving
of notifications, worker steps and rate-limited re-adds, the handler runs on `e`
at most as often as the queue dispatched `e`, and the queue dispatches `e` at
most once per notification that added it and per handler call on it that
failed. -/
theorem dispatches_le_notifications {a : Agent} (ha : a.Reachable) {c : Controller}
    (hc : c ∈ a.controllers) (e : Event) :
    invocations e c.trace ≤ dispatches e c.trace ∧
      dispatches e c.trace ≤ enqueues e c.trace + failedResults e c.trace := by
  obtain ⟨h₁, h₂⟩ := ha.delivered e c hc
  omega

theorem dispatches_le_notifications_retry : ∃ a : Agent, a.Reachable ∧ ∃ c ∈ a.controllers,
    dispatches ⟨"default/web", "create"⟩ c.trace = 2 ∧
    (invocations ⟨"default/web", "create"⟩ c.trace ≤ dispatches ⟨"default/web", "create"⟩ c.trace ∧
      dispatches ⟨"default/web", "create"⟩ c.trace ≤
        enqueues ⟨"default/web", "create"⟩ c.trace + failedResults ⟨"default/web", "create"⟩ c.trace) := by
  obtain ⟨a, ha, c, hc, h2⟩ := Agent.exists_reachable_of_run [newController "pods" .pod]
    (by simp [Controller.IsNew])
    [(0, .run ⟨10, 0⟩ 1), (0, .sync), (0, .startWorkers), (0, .workerStart 0),
     (0, .deliver (.upsert (object .pod "web" 20))), (0, .get 0), (0, .lookup 0),
     (0, .finish 0 (some "timeout")), (0, .fire ⟨"default/web", "create"⟩), (0, .get 0),
     (0, .lookup 0)]
    (fun a => ∃ c ∈ a.controllers, dispatches ⟨"default/web", "create"⟩ c.trace = 2) (by decide)
  exact ⟨a, ha, c, hc, h2, dispatches_le_notifications ha hc _⟩

/-! ## No lost notification -/

def notifyStep (e : Event) (pending : Bool) : Obs → Bool
  | .enqueued x => if x = e then true else pending
  | .dispatched x => if x = e then false else pending
  | _ => pending

def notifiedSinceDispatch (e : Event) (tr : List Obs) : Bool := tr.foldl (notifyStep e) false

@[simp] theorem notifiedSinceDispatch_append (e : Event) (tr tl : List Obs) :
    notifiedSinceDispatch e (tr ++ tl) = tl.foldl (notifyStep e) (notifiedSinceDispatch e tr) :=
  List.foldl_append ..

namespace Controller

/-- The queue keeps a pending notification for `e`: `e` is dirty, unless the
queue is shut down and drops adds. -/
def NotLost (c : Controller) (e : Event) : Prop :=
  notifiedSinceDispatch e c.trace = true → e ∈ c.queue.dirty ∨ c.queue.shuttingDown = true

variable {c c' : Controller} {t : Time} {e : Event}

theorem NotLost.of_step (hn : c.NotLost e)
    (htr : notifiedSinceDispatch e c'.trace = true → notifiedSinceDispatch e c.trace = true)
    (hq : e ∈ c.queue.dirty ∨ c.queue.shuttingDown = true →
      e ∈ c'.queue.dirty ∨ c'.queue.shuttingDown = true) : c'.NotLost e :=
  fun h => hq (hn (htr h))

theorem NotLost.step (hn : c.NotLost e) {l : Label} (h : c.step t l = some c') : c'.NotLost e := by
  cases l with
  | deliver d =>
    simp only [Controller.step] at h; split_ifs at h; cases h
    intro hN
    have hd := RateLimitingQueue.mem_add_dirty c.queue (deltaEvent c.store d) e
    by_cases hx : deltaEvent c.store d = e
    · cases hs : c.queue.shuttingDown <;> simp_all
    · simp only [handleDelta_trace, notifiedSinceDispatch_append, List.foldl_cons, List.foldl_nil,
        notifyStep, hx, if_false] at hN
      simp only [handleDelta_queue, hd, RateLimitingQueue.add_shuttingDown]
      exact (hn hN).imp_left .inl
  | get w =>
    obtain ⟨-, ⟨x, q, hq, rfl⟩ | ⟨q, hq, rfl⟩⟩ := get_eq_some h
    · obtain ⟨z, rest, -, hx, rfl⟩ | ⟨-, -, hx, -⟩ := RateLimitingQueue.get_eq_some hq
      · obtain rfl : x = z := Option.some.inj hx
        intro hN
        by_cases hxe : x = e
        · simp [notifyStep, hxe] at hN
        · simp only [notifiedSinceDispatch_append, List.foldl_cons, List.foldl_nil, notifyStep, hxe,
            if_false] at hN
          simpa [Finset.mem_erase, Ne.symm hxe] using hn hN
      · cases hx
    · obtain rfl := RateLimitingQueue.entry_get_none hq
      exact hn
  | lookup w =>
    obtain ⟨x, -, rfl | rfl⟩ := lookup_eq_some h
    · exact hn.of_step (by simp [skip, notifyStep]) (by simp [skip])
    · exact hn.of_step (by simp [notifyStep]) id
  | finish w err =>
    obtain ⟨x, -, rfl⟩ := finish_eq_some h
    refine hn.of_step ?_ (by simp)
    cases (handleErr c.queue err x).2 <;> simp [notifyStep]
  | fire x =>
    simp only [Controller.step, Option.map_eq_some'] at h
    obtain ⟨q, hq, rfl⟩ := h
    obtain ⟨-, rfl⟩ := RateLimitingQueue.fire_eq_some hq
    refine hn.of_step id fun h' => ?_
    simp only [RateLimitingQueue.mem_add_dirty, RateLimitingQueue.add_shuttingDown]
    tauto
  | workerStart w => obtain ⟨-, rfl⟩ := workerStart_eq_some h; exact hn
  | abort | stopRun =>
    simp only [Controller.step] at h; split_ifs at h; cases h
    exact hn.of_step id fun _ => .inr rfl
  | run | sync | startWorkers | stop =>
    simp only [Controller.step] at h; split_ifs at h; cases h; exact hn

theorem new_notLost (h : c.IsNew) : c.NotLost e := by
  rcases h with ⟨name, k, rfl⟩ | ⟨name, rfl⟩ <;> simp [NotLost, newController, newDynamicController,
    notifiedSinceDispatch]

end Controller

open Controller

/-- In every reachable process, a notification for `e` that arrived after `e`'s
last dispatch is not lost while the queue runs: `e` is queued, or a worker is
processing it and `e` is dirty, so that the worker's `Done` queues it again. -/
theorem notification_not_lost {a : Agent} (ha : a.Reachable) {c : Controller}
    (hc : c ∈ a.controllers) (e : Event) (hn : notifiedSinceDispatch e c.trace = true)
    (hs : c.queue.shuttingDown = false) :
    e ∈ c.queue.queue ∨ (e ∈ c.queue.dirty ∧ e ∈ c.queue.processing) := by
  have hp := ha.forall_controller (fun c => c.Inv ∧ c.NotLost e) (fun _ h => ⟨new_inv h, new_notLost h⟩)
    (fun _ _ _ _ hp h => ⟨hp.1.step h, hp.2.step h⟩) c hc
  have hd : e ∈ c.queue.dirty := by simpa [hs] using hp.2 hn
  rw [hp.1.wf.mem_queue]
  by_cases hpr : e ∈ c.queue.processing <;> simp [hd, hpr]

theorem notification_not_lost_recreate : ∃ a : Agent, a.Reachable ∧ ∃ c ∈ a.controllers,
    notifiedSinceDispatch ⟨"default/web", "create"⟩ c.trace = true ∧ c.queue.shuttingDown = false ∧
    (⟨"default/web", "create"⟩ : Event) ∈ c.queue.processing ∧
    ((⟨"default/web", "create"⟩ : Event) ∈ c.queue.queue ∨
      ((⟨"default/web", "create"⟩ : Event) ∈ c.queue.dirty ∧
        (⟨"default/web", "create"⟩ : Event) ∈ c.queue.processing)) := by
  obtain ⟨a, ha, c, hc, hn, hs, hp⟩ := Agent.exists_reachable_of_run [newController "pods" .pod]
    (by simp [Controller.IsNew])
    [(0, .run ⟨10, 0⟩ 1), (0, .sync), (0, .startWorkers), (0, .workerStart 0),
     (0, .deliver (.upsert (object .pod "web" 20))), (0, .get 0), (0, .lookup 0),
     (0, .deliver (.deleted (.obj (object .pod "web" 20)))),
     (0, .deliver (.upsert (object .pod "web" 30)))]
    (fun a => ∃ c ∈ a.controllers, notifiedSinceDispatch ⟨"default/web", "create"⟩ c.trace = true ∧
      c.queue.shuttingDown = false ∧ (⟨"default/web", "create"⟩ : Event) ∈ c.queue.processing)
    (by decide)
  exact ⟨a, ha, c, hc, hn, hs, hp, notification_not_lost ha hc _ hn hs⟩

/-! ## After shutdown -/

theorem RateLimitingQueue.add_of_shuttingDown {α : Type} [DecidableEq α] {q : RateLimitingQueue α}
    (hq : q.shuttingDown = true) (x : α) : q.add x = q := by
  unfold RateLimitingQueue.add; rw [if_pos hq]

namespace Controller

def Next (c c' : Controller) : Prop := ∃ t l, c.step t l = some c'

def run (c : Controller) (t : Time) : List Label → Option Controller
  | [] => some c
  | l :: ls => (c.step t l).bind fun c' => c'.run t ls

theorem run_next : ∀ {c c' : Controller} {t : Time} {ls : List Label},
    c.run t ls = some c' → Relation.ReflTransGen Next c c'
  | _, _, _, [], h => by cases h; exact .refl
  | _, _, _, _ :: _, h => by
    obtain ⟨c₁, h₁, h⟩ := Option.bind_eq_some.mp h
    exact .head ⟨_, _, h₁⟩ (run_next h)

def drainBound (c : Controller) (e : Event) : Nat :=
  dispatches e c.trace + if e ∈ c.queue.dirty then 1 else 0

variable {c c' : Controller} {t : Time}

theorem drain_step (e : Event) (hi : c.Inv) (hs : c.queue.shuttingDown = true) {l : Label}
    (h : c.step t l = some c') : c'.queue.shuttingDown = true ∧ c'.drainBound e ≤ c.drainBound e := by
  cases l with
  | deliver d =>
    simp only [Controller.step] at h; split_ifs at h; cases h
    simp [drainBound, RateLimitingQueue.add_of_shuttingDown hs, hs]
  | get w =>
    obtain ⟨-, ⟨x, q, hq, rfl⟩ | ⟨q, hq, rfl⟩⟩ := get_eq_some h
    · obtain ⟨z, rest, hz, hx, rfl⟩ | ⟨-, -, hx, -⟩ := RateLimitingQueue.get_eq_some hq
      · obtain rfl : x = z := Option.some.inj hx
        have hd : x ∈ c.queue.dirty := ((hi.wf.mem_queue x).mp (by simp [hz])).1
        refine ⟨hs, ?_⟩
        by_cases hxe : x = e
        · subst hxe; simp [drainBound, hd]
        · simp [drainBound, hxe, Finset.mem_erase, Ne.symm hxe]
      · cases hx
    · obtain rfl := RateLimitingQueue.entry_get_none hq
      exact ⟨hs, le_refl _⟩
  | lookup w =>
    obtain ⟨x, -, rfl | rfl⟩ := lookup_eq_some h
    · exact ⟨by simpa [skip] using hs, by simp [drainBound, skip]⟩
    · exact ⟨hs, by simp [drainBound]⟩
  | finish w err =>
    obtain ⟨x, -, rfl⟩ := finish_eq_some h
    refine ⟨by simpa using hs, ?_⟩
    cases (handleErr c.queue err x).2 <;> simp [drainBound]
  | fire x =>
    simp only [Controller.step, Option.map_eq_some'] at h
    obtain ⟨q, hq, rfl⟩ := h
    obtain ⟨-, rfl⟩ := RateLimitingQueue.fire_eq_some hq
    exact ⟨by simpa using hs, by simp [drainBound, RateLimitingQueue.add, hs]⟩
  | workerStart w => obtain ⟨-, rfl⟩ := workerStart_eq_some h; exact ⟨hs, le_refl _⟩
  | abort | stopRun =>
    simp only [Controller.step] at h; split_ifs at h; cases h; exact ⟨rfl, le_refl _⟩
  | run | sync | startWorkers | stop =>
    simp only [Controller.step] at h; split_ifs at h; cases h; exact ⟨hs, le_refl _⟩

end Controller

open Controller

/-- Once `Run`'s deferred `ShutDown` has stopped the queue of a reachable
controller, whatever its workers, informer and waiting loop do next, `e` is
dispatched at most once more, and only if it was pending (dirty) at that point:
notifications and rate-limited re-adds after the shutdown are never processed. -/
theorem dispatches_after_shutdown {a : Agent} (ha : a.Reachable) {c : Controller}
    (hc : c ∈ a.controllers) (hs : c.queue.shuttingDown = true) {c' : Controller}
    (hr : Relation.ReflTransGen Next c c') (e : Event) :
    dispatches e c'.trace ≤ dispatches e c.trace + if e ∈ c.queue.dirty then 1 else 0 := by
  have key : c'.Inv ∧ c'.queue.shuttingDown = true ∧ c'.drainBound e ≤ c.drainBound e := by
    induction hr with
    | refl => exact ⟨ha.inv c hc, hs, le_refl _⟩
    | tail _ hn ih =>
      obtain ⟨t, l, h⟩ := hn
      obtain ⟨hi, hs', hb⟩ := ih
      exact ⟨hi.step h, (drain_step e hi hs' h).1, (drain_step e hi hs' h).2.trans hb⟩
  have := key.2.2
  simp only [drainBound] at this
  split_ifs at this ⊢ <;> omega

/-- `stopCh` closes while the worker is in the handler and a delete notification
waits in the queue; `Run` returns and shuts the queue down. The worker then
finishes, takes the queued delete event and looks it up: one dispatch after the
shutdown, of the event that was pending. -/
theorem dispatches_after_shutdown_drain : ∃ a : Agent, a.Reachable ∧ ∃ c ∈ a.controllers,
    c.queue.shuttingDown = true ∧ ∃ c', Relation.ReflTransGen Next c c' ∧
    dispatches ⟨"default/web", "delete"⟩ c'.trace =
      dispatches ⟨"default/web", "delete"⟩ c.trace + 1 ∧
    dispatches ⟨"default/web", "delete"⟩ c'.trace ≤
      dispatches ⟨"default/web", "delete"⟩ c.trace +
        if (⟨"default/web", "delete"⟩ : Event) ∈ c.queue.dirty then 1 else 0 := by
  obtain ⟨a, ha, c, hc, hs, hr⟩ := Agent.exists_reachable_of_run [newController "pods" .pod]
    (by simp [Controller.IsNew])
    [(0, .run ⟨10, 0⟩ 1), (0, .sync), (0, .startWorkers), (0, .workerStart 0),
     (0, .deliver (.upsert (object .pod "web" 20))), (0, .get 0), (0, .lookup 0),
     (0, .deliver (.deleted (.obj (object .pod "web" 20)))), (0, .stop), (0, .stopRun)]
    (fun a => ∃ c ∈ a.controllers, c.queue.shuttingDown = true ∧
      (c.run ⟨10, 0⟩ [.finish 0 none, .get 0, .lookup 0]).any fun c' =>
        dispatches ⟨"default/web", "delete"⟩ c'.trace = dispatches ⟨"default/web", "delete"⟩ c.trace + 1)
    (by decide)
  cases hrun : c.run ⟨10, 0⟩ [.finish 0 none, .get 0, .lookup 0] with
  | none => simp [hrun] at hr
  | some c' =>
    have hn := Controller.run_next hrun
    exact ⟨a, ha, c, hc, hs, c', hn, by simpa [hrun] using hr, dispatches_after_shutdown ha hc hs hn _⟩

end Gimlet
