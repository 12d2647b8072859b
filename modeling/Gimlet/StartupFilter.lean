import Gimlet.Invariant

/-!
# The startup filter

`processNextItem` skips a create event when the creation time that
`getObjectMetaData` extracts from the indexer's object is before
`serverStartTime`. The test `Sub(serverStartTime).Seconds() < 0` is `Before`
for every pair of instants, saturated differences included. The time it reads
is the object's own only for the kinds of the switch; for any other kind, and
for a missing object, it is the zero time. And `serverStartTime` is the
package variable that the most recent `Run` of any controller wrote.
-/

namespace Gimlet

open Controller

theorem lookup_create_trace {c : Controller} (t : Time) {w : Nat} {e : Event}
    (hw : c.workers[w]? = some (.got e)) (he : e.eventType = "create") :
    ∃ c', c.lookup t w = some c' ∧
      c'.trace = c.trace ++
        [if (getObjectMetaData (c.indexerGet e.key)).creationTimestamp.before t then .skipped e
         else .invoked e] := by
  rw [lookup_of_got hw]
  refine ⟨_, rfl, ?_⟩
  simp only [he, true_and]
  split_ifs <;> rfl

theorem creationTimestamp_getObjectMetaData (obj : Option Object) :
    (getObjectMetaData obj).creationTimestamp =
      match obj with
      | some o => if o.kind.listed then o.objectMeta.creationTimestamp else Time.zero
      | none => Time.zero := by
  cases obj with
  | none => rfl
  | some o => rw [getObjectMetaData_some]; exact apply_ite ObjectMeta.creationTimestamp _ _ _

/-- A dequeued create event reaches the handler exactly when the extracted
creation time is not `Before` the start time: the object's own time for the
listed kinds, the zero time for other kinds and for a missing object. -/
theorem startup_filter_create {c : Controller} {t : Time} {w : Nat} {e : Event}
    (hw : c.workers[w]? = some (.got e)) (he : e.eventType = "create") :
    ∃ c', c.step t (.lookup w) = some c' ∧
      c'.trace = c.trace ++
        [if (match c.indexerGet e.key with
             | some o => if o.kind.listed then o.objectMeta.creationTimestamp else Time.zero
             | none => Time.zero).before t then .skipped e
         else .invoked e] := by
  obtain ⟨c', h, ht⟩ := lookup_create_trace t hw he
  exact ⟨c', h, by rw [ht, creationTimestamp_getObjectMetaData]⟩

theorem startup_filter_create_pod : ∃ a : Agent, a.Reachable ∧ ∃ c ∈ a.controllers,
    c.workers[0]? = some (.got ⟨"default/web", "create"⟩) ∧
    (⟨"default/web", "create"⟩ : Event).eventType = "create" ∧
    ∃ c', c.step a.serverStartTime (.lookup 0) = some c' ∧
      c'.trace = c.trace ++
        [if (match c.indexerGet "default/web" with
             | some o => if o.kind.listed then o.objectMeta.creationTimestamp else Time.zero
             | none => Time.zero).before a.serverStartTime then .skipped ⟨"default/web", "create"⟩
         else .invoked ⟨"default/web", "create"⟩] := by
  obtain ⟨a, ha, c, hc, hw⟩ := Agent.exists_reachable_of_run [newController "pods" .pod]
    (by simp [Controller.IsNew])
    [(0, .run ⟨10, 0⟩ 1), (0, .sync), (0, .startWorkers), (0, .workerStart 0),
     (0, .deliver (.upsert (object .pod "web" 20))), (0, .get 0)]
    (fun a => ∃ c ∈ a.controllers, c.workers[0]? = some (.got ⟨"default/web", "create"⟩))
    (by decide)
  exact ⟨a, ha, c, hc, hw, rfl, (startup_filter_create hw rfl :)⟩

/-- A `StatefulSet` created after `Run` started is still skipped: its kind is
not in `getObjectMetaData`'s switch. -/
theorem unlisted_kind_created_after_start_skipped : ∃ a : Agent, a.Reachable ∧ ∃ c ∈ a.controllers,
    c.indexerGet "default/web" = some (object (.other "StatefulSet") "web" 20) ∧
    (object (.other "StatefulSet") "web" 20).objectMeta.creationTimestamp.before
      a.serverStartTime = false ∧
    c.trace.getLast? = some (.skipped ⟨"default/web", "create"⟩) :=
  Agent.exists_reachable_of_run [newController "statefulsets" (.other "StatefulSet")]
    (by simp [Controller.IsNew])
    [(0, .run ⟨10, 0⟩ 1), (0, .sync), (0, .startWorkers), (0, .workerStart 0),
     (0, .deliver (.upsert (object (.other "StatefulSet") "web" 20))), (0, .get 0), (0, .lookup 0)]
    _ (by decide)

/-! ## One start time for the whole process -/

theorem serverStartTime_eq_last_run {a : Agent} (ha : a.Reachable) :
    a.serverStartTime = (a.runs.getLast?.map Prod.snd).getD Time.zero := by
  induction ha with
  | init cs h => rfl
  | step i l _ h ih =>
    unfold Agent.step at h
    split at h
    · cases h
    · split at h
      · cases h
      · split at h <;> (cases h; simp [ih])

/-- Every controller's filter compares with the start time of the most recent
`Run` of any controller of the process. -/
theorem startup_filter_last_run {a : Agent} (ha : a.Reachable) {i w : Nat} {c : Controller}
    {e : Event} (hc : a.controllers[i]? = some c) (hw : c.workers[w]? = some (.got e))
    (he : e.eventType = "create") :
    ∃ a' c', a.step i (.lookup w) = some a' ∧ a'.controllers[i]? = some c' ∧
      c'.trace = c.trace ++
        [if (getObjectMetaData (c.indexerGet e.key)).creationTimestamp.before
            ((a.runs.getLast?.map Prod.snd).getD Time.zero) then .skipped e
         else .invoked e] := by
  obtain ⟨c', h, ht⟩ := lookup_create_trace a.serverStartTime hw he
  have hi : i < a.controllers.length := (List.getElem?_eq_some_iff.mp hc).1
  refine ⟨{ a with controllers := a.controllers.set i c' }, c', ?_, by simp [hi], ?_⟩
  · simp [Agent.step, hc, Controller.step, h]
  · rw [ht, serverStartTime_eq_last_run ha]

def twoRuns : List (Nat × Label) :=
  [(0, .run ⟨10, 0⟩ 1), (0, .sync), (0, .startWorkers), (0, .workerStart 0),
   (0, .deliver (.upsert (object .pod "web" 15))), (1, .run ⟨20, 0⟩ 1), (0, .get 0)]

theorem startup_filter_last_run_pods : ∃ a : Agent, a.Reachable ∧ ∃ c,
    a.controllers[0]? = some c ∧ c.workers[0]? = some (.got ⟨"default/web", "create"⟩) ∧
    (⟨"default/web", "create"⟩ : Event).eventType = "create" ∧
    ∃ a' c', a.step 0 (.lookup 0) = some a' ∧ a'.controllers[0]? = some c' ∧
      c'.trace = c.trace ++
        [if (getObjectMetaData (c.indexerGet "default/web")).creationTimestamp.before
            ((a.runs.getLast?.map Prod.snd).getD Time.zero) then .skipped ⟨"default/web", "create"⟩
         else .invoked ⟨"default/web", "create"⟩] := by
  obtain ⟨a, ha, c, hc, hw⟩ := Agent.exists_reachable_of_run
    [newController "pods" .pod, newController "deployments" .deployment]
    (by simp [Controller.IsNew]) twoRuns
    (fun a => ∃ c, a.controllers[0]? = some c ∧ c.workers[0]? = some (.got ⟨"default/web", "create"⟩))
    (by decide)
  have h := startup_filter_last_run ha hc hw rfl
  exact ⟨a, ha, c, hc, hw, rfl, h⟩

/-- The pod controller's own `Run` recorded second 10 and the pod was created at
second 15, yet the filter skips it: the other controller's `Run` moved the
shared start time to second 20. -/
theorem other_run_moves_filter : ∃ a : Agent, a.Reachable ∧ (0, (⟨10, 0⟩ : Time)) ∈ a.runs ∧
    ∃ c, a.controllers[0]? = some c ∧ c.indexerGet "default/web" = some (object .pod "web" 15) ∧
      (object .pod "web" 15).objectMeta.creationTimestamp.before ⟨10, 0⟩ = false ∧
      c.trace.getLast? = some (.skipped ⟨"default/web", "create"⟩) :=
  Agent.exists_reachable_of_run [newController "pods" .pod, newController "deployments" .deployment]
    (by simp [Controller.IsNew]) (twoRuns ++ [(0, .lookup 0)]) _ (by decide)

end Gimlet
