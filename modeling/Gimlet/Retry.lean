import Mathlib.Data.List.ReduceOption
import Gimlet.Invariant

/-!
# The retry policy

`handleErr` forgets an item after a success, re-adds it through the rate
limiter while `NumRequeues` is below 5, and after that forgets it and reports
the error. Followed for one item, a controller passes through the phases of
`RetryPhase`: fresh until its first dispatch, then queued, dispatched
(`got`), inside the handler, and delayed by the rate limiter, until the item
ends (a skipped lookup, or a re-add dropped at shutdown) or is dropped after
its sixth failure. The phases hold as long as the handler fails on the item and
no notification adds it again once it has been dispatched.
-/

namespace Gimlet

open Controller

/-! ## One item's history -/

def dispatches (e : Event) (tr : List Obs) : Nat := tr.count (.dispatched e)

def invocations (e : Event) (tr : List Obs) : Nat := tr.count (.invoked e)

@[simp] def Obs.resultFor (e : Event) : Obs → Option (Option String)
  | .returned x r => if x = e then some r else none
  | _ => none

@[simp] def Obs.reportFor (e : Event) : Obs → Option String
  | .handleError x m => if x = e then some m else none
  | _ => none

def results (e : Event) (tr : List Obs) : List (Option String) := tr.filterMap (Obs.resultFor e)

def reports (e : Event) (tr : List Obs) : List String := tr.filterMap (Obs.reportFor e)

/-- From `e`'s first dispatch on, no informer notification adds `e`. -/
def NoAddAfterDispatch (e : Event) (tr : List Obs) : Prop :=
  Obs.enqueued e ∉ tr.dropWhile (· != .dispatched e)

instance (e : Event) (tr : List Obs) : Decidable (NoAddAfterDispatch e tr) :=
  inferInstanceAs (Decidable (_ ∉ _))

section
variable (e : Event) (tr tr' : List Obs)

@[simp] theorem dispatches_append : dispatches e (tr ++ tr') = dispatches e tr + dispatches e tr' :=
  List.count_append ..
@[simp] theorem invocations_append :
    invocations e (tr ++ tr') = invocations e tr + invocations e tr' := List.count_append ..
@[simp] theorem results_append : results e (tr ++ tr') = results e tr ++ results e tr' :=
  List.filterMap_append ..
@[simp] theorem reports_append : reports e (tr ++ tr') = reports e tr ++ reports e tr' :=
  List.filterMap_append ..

@[simp] theorem dispatches_cons (o : Obs) :
    dispatches e (o :: tr) = (if o = .dispatched e then 1 else 0) + dispatches e tr := by
  simp [dispatches, List.count_cons]; split_ifs <;> omega
@[simp] theorem invocations_cons (o : Obs) :
    invocations e (o :: tr) = (if o = .invoked e then 1 else 0) + invocations e tr := by
  simp [invocations, List.count_cons]; split_ifs <;> omega
@[simp] theorem results_cons (o : Obs) :
    results e (o :: tr) = ((o.resultFor e).toList ++ results e tr) := by
  simp only [results, List.filterMap_cons]; cases o.resultFor e <;> rfl
@[simp] theorem reports_cons (o : Obs) :
    reports e (o :: tr) = ((o.reportFor e).toList ++ reports e tr) := by
  simp only [reports, List.filterMap_cons]; cases o.reportFor e <;> rfl

@[simp] theorem dispatches_nil : dispatches e [] = 0 := rfl
@[simp] theorem invocations_nil : invocations e [] = 0 := rfl
@[simp] theorem results_nil : results e [] = [] := rfl
@[simp] theorem reports_nil : reports e [] = [] := rfl

end

theorem NoAddAfterDispatch.of_append {e : Event} {tr tr' : List Obs} (h : NoAddAfterDispatch e (tr ++ tr')) :
    NoAddAfterDispatch e tr := by
  unfold NoAddAfterDispatch at *
  rw [List.dropWhile_append] at h
  split at h
  · rename_i hnil; rw [List.isEmpty_iff.mp hnil]; exact List.not_mem_nil _
  · exact fun hm => h (List.mem_append_left _ hm)

theorem not_noAddAfterDispatch {e : Event} {tr : List Obs} (hd : Obs.dispatched e ∈ tr) :
    ¬NoAddAfterDispatch e (tr ++ [.enqueued e]) := by
  have hne : (tr.dropWhile (· != .dispatched e)).isEmpty = false := by
    simpa [List.isEmpty_iff, List.dropWhile_eq_nil_iff] using hd
  simp [NoAddAfterDispatch, List.dropWhile_append, hne]

/-! ## One item's view of a controller -/

structure ItemView where
  entry : RateLimitingQueue.Entry
  got : Nat
  handling : Nat
  dispatches : Nat
  invocations : Nat
  results : List (Option String)
  reports : List String

def Controller.view (c : Controller) (e : Event) : ItemView :=
  ⟨c.queue.entry e, c.workers.count (.got e), c.workers.count (.handling e), dispatches e c.trace,
    invocations e c.trace, results e c.trace, reports e c.trace⟩

inductive RetryPhase
  | fresh
  | queued (k : Nat)
  | delayed (k : Nat)
  | got (k : Nat)
  | handling (k : Nat)
  | ended (k : Nat)
  | dropped

/-- What each phase says of the item's view. Until the first dispatch the item
may be queued any number of times; afterwards it is in at most one place. -/
def RetryPhase.Holds : RetryPhase → ItemView → Prop
  | .fresh, v => v.entry.processing = false ∧ v.entry.waiting = false ∧ v.entry.failures = 0 ∧
      v.got = 0 ∧ v.handling = 0 ∧ v.dispatches = 0 ∧ v.invocations = 0 ∧ v.results = [] ∧
      v.reports = []
  | .queued k, v => 1 ≤ k ∧ k ≤ 5 ∧ v.entry.queued = true ∧ v.entry.processing = false ∧
      v.entry.waiting = false ∧ v.entry.failures = k ∧ v.got = 0 ∧ v.handling = 0 ∧
      v.dispatches = k ∧ v.invocations = k ∧ v.results.length = k ∧ v.reports = []
  | .delayed k, v => 1 ≤ k ∧ k ≤ 5 ∧ v.entry = ⟨false, false, false, true, k⟩ ∧ v.got = 0 ∧
      v.handling = 0 ∧ v.dispatches = k ∧ v.invocations = k ∧ v.results.length = k ∧ v.reports = []
  | .got k, v => k ≤ 5 ∧ v.entry = ⟨false, false, true, false, k⟩ ∧ v.got = 1 ∧ v.handling = 0 ∧
      v.dispatches = k + 1 ∧ v.invocations = k ∧ v.results.length = k ∧ v.reports = []
  | .handling k, v => k ≤ 5 ∧ v.entry = ⟨false, false, true, false, k⟩ ∧ v.got = 0 ∧
      v.handling = 1 ∧ v.dispatches = k + 1 ∧ v.invocations = k + 1 ∧ v.results.length = k ∧
      v.reports = []
  | .ended k, v => k ≤ 5 ∧ v.entry.queued = false ∧ v.entry.dirty = false ∧
      v.entry.processing = false ∧ v.entry.waiting = false ∧ v.got = 0 ∧ v.handling = 0 ∧
      1 ≤ v.dispatches ∧ v.invocations = k ∧ v.results.length = k ∧ v.reports = []
  | .dropped, v => v.entry = ⟨false, false, false, false, 0⟩ ∧ v.got = 0 ∧ v.handling = 0 ∧
      v.dispatches = 6 ∧ v.invocations = 6 ∧ v.results.length = 6 ∧
      v.reports = (v.results.drop 5).reduceOption

namespace RetryPhase

variable {p : RetryPhase} {v : ItemView}

/-! ## Which phase a view is in -/

theorem eq_fresh (hp : p.Holds v) (h : v.dispatches = 0) : p = .fresh := by
  cases p <;> simp only [Holds] at hp <;> casesm* _ ∧ _ <;> first | rfl | omega

theorem eq_fresh_or_queued (hp : p.Holds v) (h : v.entry.queued = true) :
    p = .fresh ∨ ∃ k, p = .queued k := by
  cases p <;> simp only [Holds] at hp <;> casesm* _ ∧ _ <;> simp_all

theorem eq_got (hp : p.Holds v) (h : 0 < v.got) : ∃ k, p = .got k := by
  cases p <;> simp only [Holds] at hp <;> casesm* _ ∧ _ <;> first | exact ⟨_, rfl⟩ | omega

theorem eq_handling (hp : p.Holds v) (h : 0 < v.handling) : ∃ k, p = .handling k := by
  cases p <;> simp only [Holds] at hp <;> casesm* _ ∧ _ <;> first | exact ⟨_, rfl⟩ | omega

theorem eq_delayed (hp : p.Holds v) (h : v.entry.waiting = true) : ∃ k, p = .delayed k := by
  cases p <;> simp only [Holds] at hp <;> casesm* _ ∧ _ <;> simp_all

theorem bound (hp : p.Holds v) :
    v.invocations ≤ 6 ∧ v.reports = (v.results.drop 5).reduceOption ∧
      (v.results.length = 6 → v.entry.failures = 0 ∧ v.dispatches = 6) := by
  cases p <;> simp only [Holds] at hp <;> casesm* _ ∧ _ <;> simp_all [List.drop_eq_nil_of_le] <;> omega

end RetryPhase

/-! ## A controller step, seen from one item -/

section
variable {c c' : Controller} {t : Time} {w : Nat} {e : Event} {p : RetryPhase}

@[simp] theorem view_entry : (c.view e).entry = c.queue.entry e := rfl
@[simp] theorem view_got : (c.view e).got = c.workers.count (.got e) := rfl
@[simp] theorem view_handling : (c.view e).handling = c.workers.count (.handling e) := rfl
@[simp] theorem view_dispatches : (c.view e).dispatches = dispatches e c.trace := rfl
@[simp] theorem view_invocations : (c.view e).invocations = invocations e c.trace := rfl
@[simp] theorem view_results : (c.view e).results = results e c.trace := rfl
@[simp] theorem view_reports : (c.view e).reports = reports e c.trace := rfl

theorem entry_handleErr_ne {x : Event} (q : RateLimitingQueue Event) (err : Option String)
    (h : e ≠ x) : (handleErr q err x).1.entry e = q.entry e := by
  unfold handleErr; split <;> (try split) <;>
    simp only [RateLimitingQueue.entry_forget_ne h, RateLimitingQueue.entry_addRateLimited_ne h]

theorem step_trace {l : Label} (h : c.step t l = some c') : ∃ tl, c'.trace = c.trace ++ tl := by
  cases l with
  | workerStart w => obtain ⟨-, rfl⟩ := workerStart_eq_some h; exact ⟨[], by simp⟩
  | get w =>
    obtain ⟨-, ⟨_, _, -, rfl⟩ | ⟨_, -, rfl⟩⟩ := get_eq_some h
    exacts [⟨_, rfl⟩, ⟨[], by simp⟩]
  | lookup w => obtain ⟨_, -, rfl | rfl⟩ := lookup_eq_some h <;> exact ⟨_, rfl⟩
  | finish w err => obtain ⟨_, -, rfl⟩ := finish_eq_some h; exact ⟨_, rfl⟩
  | fire x =>
    simp only [Controller.step, Option.map_eq_some'] at h
    obtain ⟨_, -, rfl⟩ := h; exact ⟨[], by simp⟩
  | deliver d => simp only [Controller.step] at h; split_ifs at h; cases h; exact ⟨_, rfl⟩
  | _ => simp only [Controller.step] at h; split_ifs at h; cases h; exact ⟨[], by simp⟩

theorem retry_deliver {d : Delta} (hp : p.Holds (c.view e)) (h : c.step t (.deliver d) = some c')
    (hno : NoAddAfterDispatch e c'.trace) : ∃ p' : RetryPhase, p'.Holds (c'.view e) := by
  simp only [Controller.step] at h; split_ifs at h; cases h
  by_cases hx : deltaEvent c.store d = e
  · have hd : dispatches e c.trace = 0 := by
      by_contra hne
      exact not_noAddAfterDispatch (List.count_pos_iff.mp (Nat.pos_of_ne_zero hne)) (by simpa [hx] using hno)
    obtain rfl := RetryPhase.eq_fresh hp hd
    refine ⟨.fresh, ?_⟩
    simpa [RetryPhase.Holds, RateLimitingQueue.entry] using hp
  · refine ⟨p, ?_⟩
    simpa [Controller.view, RateLimitingQueue.entry_add_ne (Ne.symm hx), Ne.symm hx] using hp

theorem retry_get (hi : c.Inv) (hp : p.Holds (c.view e)) (h : c.get w = some c') :
    ∃ p' : RetryPhase, p'.Holds (c'.view e) := by
  obtain ⟨hw, ⟨x, q, hq, rfl⟩ | ⟨q, hq, rfl⟩⟩ := get_eq_some h
  · obtain ⟨y, rest, hy, hxy, rfl⟩ | ⟨-, -, hx, -⟩ := RateLimitingQueue.get_eq_some hq
    · obtain rfl : x = y := Option.some.inj hxy
      by_cases hx : x = e
      · subst hx
        have hrest : x ∉ rest := (List.nodup_cons.mp (hy ▸ hi.wf.nodup)).1
        refine ⟨.got (c.queue.failures x), ?_⟩
        rcases RetryPhase.eq_fresh_or_queued hp (by simp [RateLimitingQueue.entry, hy])
          with rfl | ⟨k, rfl⟩ <;>
        simp only [RetryPhase.Holds] at hp ⊢ <;>
        simp_all [RateLimitingQueue.entry, count_set_of_getElem? hw]
      · refine ⟨p, ?_⟩
        simpa [Controller.view, RateLimitingQueue.entry_get_ne hq (Ne.symm hx), count_set_of_getElem? hw,
          hx] using hp
    · cases hx
  · obtain rfl := RateLimitingQueue.entry_get_none hq
    exact ⟨p, by simpa [Controller.view, count_set_of_getElem? hw] using hp⟩

theorem retry_lookup (hp : p.Holds (c.view e)) (h : c.lookup t w = some c') :
    ∃ p' : RetryPhase, p'.Holds (c'.view e) := by
  obtain ⟨x, hw, hc'⟩ := lookup_eq_some h
  by_cases hx : x = e
  · subst hx
    obtain ⟨k, rfl⟩ := RetryPhase.eq_got hp (List.count_pos_iff.mpr (List.getElem?_mem hw))
    simp only [RetryPhase.Holds] at hp
    rcases hc' with rfl | rfl
    · refine ⟨.ended k, ?_⟩
      simp_all [RetryPhase.Holds, skip, RateLimitingQueue.entry, RateLimitingQueue.mem_done_queue,
        count_set_of_getElem? hw]
    · exact ⟨.handling k, by simp_all [RetryPhase.Holds, count_set_of_getElem? hw]⟩
  · refine ⟨p, ?_⟩
    rcases hc' with rfl | rfl <;>
    simpa [skip, Controller.view, RateLimitingQueue.entry_done_ne (Ne.symm hx),
      count_set_of_getElem? hw, hx] using hp

theorem retry_finish (hp : p.Holds (c.view e)) {err : Option String} (h : c.finish w err = some c')
    (hfail : none ∉ results e c'.trace) : ∃ p' : RetryPhase, p'.Holds (c'.view e) := by
  obtain ⟨x, hw, rfl⟩ := finish_eq_some h
  by_cases hx : x = e
  · subst hx
    obtain ⟨k, rfl⟩ := RetryPhase.eq_handling hp (List.count_pos_iff.mpr (List.getElem?_mem hw))
    obtain ⟨m, rfl⟩ : ∃ m, err = some m :=
      Option.ne_none_iff_exists'.mp (by rintro rfl; simp at hfail)
    simp only [RetryPhase.Holds, Controller.view, RateLimitingQueue.entry,
      RateLimitingQueue.Entry.mk.injEq, decide_eq_false_iff_not, decide_eq_true_eq] at hp
    obtain ⟨hk, ⟨hq, hdirty, hproc, hwait, hfk⟩, hg, hh, hd, hinv, hres, hrep⟩ := hp
    rcases Nat.lt_or_ge k 5 with hk5 | hk5
    · have hr : handleErr c.queue (some m) x = (c.queue.addRateLimited x, none) := by
        simp [handleErr, RateLimitingQueue.numRequeues, hfk, hk5]
      refine ⟨if c.queue.shuttingDown then .ended (k + 1) else .delayed (k + 1), ?_⟩
      cases hsd : c.queue.shuttingDown <;>
      simp [RetryPhase.Holds, hr, RateLimitingQueue.entry, RateLimitingQueue.mem_done_queue,
        RateLimitingQueue.mem_addRateLimited_waiting, count_set_of_getElem? hw, *] <;> omega
    · obtain rfl : k = 5 := by omega
      have hr : handleErr c.queue (some m) x = (c.queue.forget x, some m) := by
        simp [handleErr, RateLimitingQueue.numRequeues, hfk]
      refine ⟨.dropped, ?_⟩
      simp [RetryPhase.Holds, hr, RateLimitingQueue.entry, RateLimitingQueue.mem_done_queue,
        count_set_of_getElem? hw, *]
  · refine ⟨p, ?_⟩
    cases hr : (handleErr c.queue err x).2 <;>
    simpa [Controller.view, RateLimitingQueue.entry_done_ne (Ne.symm hx), entry_handleErr_ne _ _ (Ne.symm hx),
      count_set_of_getElem? hw, hx, hr] using hp

theorem retry_fire {x : Event} (hp : p.Holds (c.view e)) (h : c.step t (.fire x) = some c') :
    ∃ p' : RetryPhase, p'.Holds (c'.view e) := by
  simp only [Controller.step, Option.map_eq_some'] at h
  obtain ⟨q, hq, rfl⟩ := h
  by_cases hx : x = e
  · subst hx
    obtain ⟨hxw, rfl⟩ := RateLimitingQueue.fire_eq_some hq
    obtain ⟨k, rfl⟩ := RetryPhase.eq_delayed hp (by simpa [RateLimitingQueue.entry] using hxw)
    simp only [RetryPhase.Holds, Controller.view, RateLimitingQueue.entry,
      RateLimitingQueue.Entry.mk.injEq, decide_eq_false_iff_not, decide_eq_true_eq] at hp
    obtain ⟨hk1, hk, ⟨hq, hdirty, hproc, -, hfk⟩, hg, hh, hd, hinv, hres, hrep⟩ := hp
    refine ⟨if c.queue.shuttingDown then .ended k else .queued k, ?_⟩
    cases hsd : c.queue.shuttingDown <;>
    simp [RetryPhase.Holds, RateLimitingQueue.add, RateLimitingQueue.entry, *]
  · exact ⟨p, by simpa [Controller.view, RateLimitingQueue.entry_fire_ne hq (Ne.symm hx)] using hp⟩

theorem retry_step (hi : c.Inv) (hp : p.Holds (c.view e)) {l : Label} (h : c.step t l = some c')
    (hfail : none ∉ results e c'.trace) (hno : NoAddAfterDispatch e c'.trace) :
    ∃ p' : RetryPhase, p'.Holds (c'.view e) := by
  cases l with
  | deliver d => exact retry_deliver hp h hno
  | get w => exact retry_get hi hp h
  | lookup w => exact retry_lookup hp h
  | finish w err => exact retry_finish hp h hfail
  | fire x => exact retry_fire hp h
  | workerStart w =>
    obtain ⟨hw, rfl⟩ := workerStart_eq_some h
    exact ⟨p, by cases c.stopClosed <;> simpa [Controller.view, count_set_of_getElem? hw] using hp⟩
  | startWorkers =>
    simp only [Controller.step] at h; split_ifs at h with hc; cases h
    have hnil := hi.no_workers (.inr hc.1)
    exact ⟨p, by simpa [Controller.view, hnil, List.count_replicate] using hp⟩
  | _ => simp only [Controller.step] at h; split_ifs at h; cases h; exact ⟨p, hp⟩

end

/-! ## Over whole runs -/

/-- In every reachable process, an item on which the handler has always failed,
and which no notification added after its first dispatch, is in one of the
retry phases. -/
theorem retry_phase {a : Agent} (ha : a.Reachable) {c : Controller} (hc : c ∈ a.controllers)
    (e : Event) (hfail : none ∉ results e c.trace) (hno : NoAddAfterDispatch e c.trace) :
    ∃ p : RetryPhase, p.Holds (c.view e) := by
  refine (ha.forall_controller (fun c => c.Inv ∧ (none ∉ results e c.trace →
    NoAddAfterDispatch e c.trace → ∃ p : RetryPhase, p.Holds (c.view e))) ?_ ?_ c hc).2 hfail hno
  · intro c hn
    refine ⟨new_inv hn, fun _ _ => ⟨.fresh, ?_⟩⟩
    rcases hn with ⟨_, _, rfl⟩ | ⟨_, rfl⟩ <;>
    simp [RetryPhase.Holds, Controller.view, newController, newDynamicController,
      RateLimitingQueue.empty, RateLimitingQueue.entry]
  · rintro c c' t l ⟨hi, ih⟩ h
    refine ⟨hi.step h, fun hf hn => ?_⟩
    obtain ⟨tl, htl⟩ := step_trace h
    have hf₀ : none ∉ results e c.trace := fun h₀ => hf (by simp [htl, h₀])
    obtain ⟨p, hp⟩ := ih hf₀ (htl ▸ hn : NoAddAfterDispatch e (c.trace ++ tl)).of_append
    exact retry_step hi hp h hf hn

/-- An item on which the handler always fails is handled at most six times: after
the sixth failure `handleErr` reports that failure, and only that one, forgets the
item and never dispatches it again, unless a notification adds it anew. -/
theorem retry_bound {a : Agent} (ha : a.Reachable) {c : Controller} (hc : c ∈ a.controllers)
    (e : Event) (hfail : none ∉ results e c.trace) (hno : NoAddAfterDispatch e c.trace) :
    invocations e c.trace ≤ 6 ∧ reports e c.trace = ((results e c.trace).drop 5).reduceOption ∧
      ((results e c.trace).length = 6 → c.queue.numRequeues e = 0 ∧ dispatches e c.trace = 6) := by
  obtain ⟨p, hp⟩ := retry_phase ha hc e hfail hno
  exact p.bound hp

def sixFailures : List (Nat × Label) :=
  let ev : Event := ⟨"default/web", "create"⟩
  let attempt := [(0, .get 0), (0, .lookup 0), (0, .finish 0 (some "timeout"))]
  [(0, .run ⟨10, 0⟩ 1), (0, .sync), (0, .startWorkers), (0, .workerStart 0),
   (0, .deliver (.upsert (object .pod "web" 20)))] ++
  ((List.replicate 5 (attempt ++ [(0, .fire ev)])).flatten ++ attempt)

theorem retry_bound_six_failures : ∃ a : Agent, a.Reachable ∧ ∃ c ∈ a.controllers,
    (results ⟨"default/web", "create"⟩ c.trace).length = 6 ∧
    none ∉ results ⟨"default/web", "create"⟩ c.trace ∧
    NoAddAfterDispatch ⟨"default/web", "create"⟩ c.trace ∧
    invocations ⟨"default/web", "create"⟩ c.trace ≤ 6 ∧
    reports ⟨"default/web", "create"⟩ c.trace =
      ((results ⟨"default/web", "create"⟩ c.trace).drop 5).reduceOption ∧
    ((results ⟨"default/web", "create"⟩ c.trace).length = 6 →
      c.queue.numRequeues ⟨"default/web", "create"⟩ = 0 ∧
      dispatches ⟨"default/web", "create"⟩ c.trace = 6) := by
  obtain ⟨a, ha, c, hc, hlen, hf, hn⟩ := Agent.exists_reachable_of_run [newController "pods" .pod]
    (by simp [Controller.IsNew]) sixFailures
    (fun a => ∃ c ∈ a.controllers, (results ⟨"default/web", "create"⟩ c.trace).length = 6 ∧
      none ∉ results ⟨"default/web", "create"⟩ c.trace ∧
      NoAddAfterDispatch ⟨"default/web", "create"⟩ c.trace)
    (by decide)
  have h := retry_bound ha hc _ hf hn
  exact ⟨a, ha, c, hc, hlen, hf, hn, h⟩

/-- The handler fails once on the pod's create event; the pod is deleted while
the event waits for its retry, so the retry's lookup misses, the filter sees the
zero time and skips the event without `Forget`. -/
theorem skipped_item_keeps_failures : ∃ a : Agent, a.Reachable ∧ ∃ c ∈ a.controllers,
    (⟨"default/web", "create"⟩ : Event) ∉ c.queue.queue ∧
    (⟨"default/web", "create"⟩ : Event) ∉ c.queue.processing ∧
    (⟨"default/web", "create"⟩ : Event) ∉ c.queue.waiting ∧
    c.queue.numRequeues ⟨"default/web", "create"⟩ = 1 :=
  Agent.exists_reachable_of_run [newController "pods" .pod] (by simp [Controller.IsNew])
    [(0, .run ⟨10, 0⟩ 1), (0, .sync), (0, .startWorkers), (0, .workerStart 0),
     (0, .deliver (.upsert (object .pod "web" 20))), (0, .get 0), (0, .lookup 0),
     (0, .finish 0 (some "timeout")), (0, .fire ⟨"default/web", "create"⟩),
     (0, .deliver (.deleted (.obj (object .pod "web" 20)))), (0, .get 0), (0, .lookup 0)]
    _ (by decide)

end Gimlet
