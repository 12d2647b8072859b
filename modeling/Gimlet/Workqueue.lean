import Mathlib.Data.Finset.Basic

/-!
# client-go's rate-limiting work queue

`workqueue.NewRateLimitingQueue(workqueue.DefaultControllerRateLimiter())`:
the work queue proper (`queue`, `dirty`, `processing`, `shuttingDown`), the
items the delaying queue holds back, and the per-item failure counts of the
exponential failure rate limiter. Items are compared by Go equality, which for
the controller's `Event` is equality of both fields.
-/

namespace Gimlet

structure RateLimitingQueue (α : Type) where
  queue : List α
  dirty : Finset α
  processing : Finset α
  shuttingDown : Bool
  waiting : Finset α
  failures : α → Nat

namespace RateLimitingQueue

variable {α : Type}

def empty : RateLimitingQueue α := ⟨[], ∅, ∅, false, ∅, fun _ => 0⟩

/-- `Type.ShutDown`, with the delaying queue's waiting loop stopped. -/
def shutDown (q : RateLimitingQueue α) : RateLimitingQueue α := { q with shuttingDown := true }

/-- `NumRequeues`: the maximum over the two limiters, and the token bucket
always reports 0. -/
def numRequeues (q : RateLimitingQueue α) (x : α) : Nat := q.failures x

/-- The work queue's own invariant: an item is queued once, and exactly when
it is dirty and not being processed. -/
structure WF (q : RateLimitingQueue α) : Prop where
  nodup : q.queue.Nodup
  mem_queue : ∀ x, x ∈ q.queue ↔ x ∈ q.dirty ∧ x ∉ q.processing

section
variable (q : RateLimitingQueue α)

@[simp] theorem shutDown_queue : q.shutDown.queue = q.queue := rfl
@[simp] theorem shutDown_dirty : q.shutDown.dirty = q.dirty := rfl
@[simp] theorem shutDown_processing : q.shutDown.processing = q.processing := rfl
@[simp] theorem shutDown_waiting : q.shutDown.waiting = q.waiting := rfl
@[simp] theorem shutDown_failures : q.shutDown.failures = q.failures := rfl
@[simp] theorem shutDown_shuttingDown : q.shutDown.shuttingDown = true := rfl

end

theorem empty_wf : (empty : RateLimitingQueue α).WF := ⟨List.nodup_nil, by simp [empty]⟩

theorem shutDown_wf {q : RateLimitingQueue α} (hq : q.WF) : q.shutDown.WF :=
  ⟨hq.nodup, hq.mem_queue⟩

variable [DecidableEq α]

def add (q : RateLimitingQueue α) (x : α) : RateLimitingQueue α :=
  if q.shuttingDown then q
  else if x ∈ q.dirty then q
  else if x ∈ q.processing then { q with dirty := insert x q.dirty }
  else { q with dirty := insert x q.dirty, queue := q.queue ++ [x] }

/-- `Type.Get`: `some (some x, _)` hands `x` to the caller, `some (none, _)` is
`quit` (shut down and drained); an empty queue that is not shut down blocks. -/
def get (q : RateLimitingQueue α) : Option (Option α × RateLimitingQueue α) :=
  match q.queue with
  | x :: rest =>
    some (some x, { q with queue := rest, processing := insert x q.processing,
                           dirty := q.dirty.erase x })
  | [] => if q.shuttingDown then some (none, q) else none

def done (q : RateLimitingQueue α) (x : α) : RateLimitingQueue α :=
  if x ∈ q.dirty then { q with processing := q.processing.erase x, queue := q.queue ++ [x] }
  else { q with processing := q.processing.erase x }

def forget (q : RateLimitingQueue α) (x : α) : RateLimitingQueue α :=
  { q with failures := Function.update q.failures x 0 }

/-- `AddRateLimited`. `When` counts the failure; the delay it returns is at
least the 5 ms base, so `AddAfter` hands the item to the waiting loop unless
the queue is shutting down. -/
def addRateLimited (q : RateLimitingQueue α) (x : α) : RateLimitingQueue α :=
  if q.shuttingDown then { q with failures := Function.update q.failures x (q.failures x + 1) }
  else { q with failures := Function.update q.failures x (q.failures x + 1),
                waiting := insert x q.waiting }

def fire (q : RateLimitingQueue α) (x : α) : Option (RateLimitingQueue α) :=
  if x ∈ q.waiting then some ({ q with waiting := q.waiting.erase x }.add x) else none

/-! ## Fields after each operation -/

section
variable (q : RateLimitingQueue α) (x : α)

@[simp] theorem add_processing : (q.add x).processing = q.processing := by
  unfold add; split_ifs <;> rfl
@[simp] theorem add_waiting : (q.add x).waiting = q.waiting := by
  unfold add; split_ifs <;> rfl
@[simp] theorem add_failures : (q.add x).failures = q.failures := by
  unfold add; split_ifs <;> rfl
@[simp] theorem add_shuttingDown : (q.add x).shuttingDown = q.shuttingDown := by
  unfold add; split_ifs <;> rfl

theorem mem_add_dirty (y : α) :
    y ∈ (q.add x).dirty ↔ y ∈ q.dirty ∨ (y = x ∧ q.shuttingDown = false) := by
  unfold add; split_ifs with h₁ h₂ <;> simp_all [or_comm]

theorem mem_add_queue (hq : q.WF) (y : α) :
    y ∈ (q.add x).queue ↔ y ∈ q.queue ∨ (y = x ∧ q.shuttingDown = false ∧ x ∉ q.processing) := by
  unfold add; split_ifs with h₁ h₂ h₃ <;> simp_all [hq.mem_queue]

@[simp] theorem done_waiting : (q.done x).waiting = q.waiting := by
  unfold done; split_ifs <;> rfl
@[simp] theorem done_failures : (q.done x).failures = q.failures := by
  unfold done; split_ifs <;> rfl
@[simp] theorem done_shuttingDown : (q.done x).shuttingDown = q.shuttingDown := by
  unfold done; split_ifs <;> rfl
@[simp] theorem done_dirty : (q.done x).dirty = q.dirty := by
  unfold done; split_ifs <;> rfl
@[simp] theorem done_processing : (q.done x).processing = q.processing.erase x := by
  unfold done; split_ifs <;> rfl

theorem mem_done_queue (y : α) :
    y ∈ (q.done x).queue ↔ y ∈ q.queue ∨ (y = x ∧ x ∈ q.dirty) := by
  unfold done; split_ifs <;> simp_all

@[simp] theorem forget_failures : (q.forget x).failures = Function.update q.failures x 0 := rfl
@[simp] theorem forget_queue : (q.forget x).queue = q.queue := rfl
@[simp] theorem forget_dirty : (q.forget x).dirty = q.dirty := rfl
@[simp] theorem forget_processing : (q.forget x).processing = q.processing := rfl
@[simp] theorem forget_waiting : (q.forget x).waiting = q.waiting := rfl
@[simp] theorem forget_shuttingDown : (q.forget x).shuttingDown = q.shuttingDown := rfl

@[simp] theorem addRateLimited_failures :
    (q.addRateLimited x).failures = Function.update q.failures x (q.failures x + 1) := by
  unfold addRateLimited; split_ifs <;> rfl
@[simp] theorem addRateLimited_queue : (q.addRateLimited x).queue = q.queue := by
  unfold addRateLimited; split_ifs <;> rfl
@[simp] theorem addRateLimited_dirty : (q.addRateLimited x).dirty = q.dirty := by
  unfold addRateLimited; split_ifs <;> rfl
@[simp] theorem addRateLimited_processing : (q.addRateLimited x).processing = q.processing := by
  unfold addRateLimited; split_ifs <;> rfl
@[simp] theorem addRateLimited_shuttingDown :
    (q.addRateLimited x).shuttingDown = q.shuttingDown := by
  unfold addRateLimited; split_ifs <;> rfl
theorem mem_addRateLimited_waiting (y : α) :
    y ∈ (q.addRateLimited x).waiting ↔ y ∈ q.waiting ∨ (y = x ∧ q.shuttingDown = false) := by
  unfold addRateLimited; split_ifs <;> simp_all [or_comm]

end

theorem get_cons {q : RateLimitingQueue α} {x : α} {rest : List α} (h : q.queue = x :: rest) :
    q.get = some (some x, { q with queue := rest, processing := insert x q.processing,
                                   dirty := q.dirty.erase x }) := by
  simp [get, h]

theorem get_eq_some {q q' : RateLimitingQueue α} {r : Option α} (h : q.get = some (r, q')) :
    (∃ x rest, q.queue = x :: rest ∧ r = some x ∧
      q' = { q with queue := rest, processing := insert x q.processing,
                    dirty := q.dirty.erase x }) ∨
    (q.queue = [] ∧ q.shuttingDown = true ∧ r = none ∧ q' = q) := by
  unfold get at h
  split at h
  · simp only [Option.some.injEq, Prod.mk.injEq] at h
    exact .inl ⟨_, _, ‹_›, h.1.symm, h.2.symm⟩
  · split at h <;> simp_all

theorem fire_eq_some {q q' : RateLimitingQueue α} {x : α} (h : q.fire x = some q') :
    x ∈ q.waiting ∧ q' = { q with waiting := q.waiting.erase x }.add x := by
  unfold fire at h; split_ifs at h with hx; exact ⟨hx, (Option.some.inj h).symm⟩

/-! ## One item's entry

What the queue records about a single item. An operation on one item leaves
every other item's entry as it was. -/

structure Entry where
  queued : Bool
  dirty : Bool
  processing : Bool
  waiting : Bool
  failures : Nat
  deriving DecidableEq, Repr

def entry (q : RateLimitingQueue α) (y : α) : Entry :=
  ⟨decide (y ∈ q.queue), decide (y ∈ q.dirty), decide (y ∈ q.processing), decide (y ∈ q.waiting),
    q.failures y⟩

section
variable {q q' : RateLimitingQueue α} {x y : α}

@[simp] theorem entry_shutDown : q.shutDown.entry y = q.entry y := rfl

theorem entry_add_ne (h : y ≠ x) : (q.add x).entry y = q.entry y := by
  unfold add; split_ifs <;> simp [entry, h]

theorem entry_done_ne (h : y ≠ x) : (q.done x).entry y = q.entry y := by
  unfold done; split_ifs <;> simp [entry, h]

theorem entry_forget_ne (h : y ≠ x) : (q.forget x).entry y = q.entry y := by
  simp [entry, forget, Function.update_noteq h]

theorem entry_addRateLimited_ne (h : y ≠ x) : (q.addRateLimited x).entry y = q.entry y := by
  unfold addRateLimited; split_ifs <;> simp [entry, Function.update_noteq h, h]

theorem entry_fire_ne (hf : q.fire x = some q') (h : y ≠ x) : q'.entry y = q.entry y := by
  obtain ⟨-, rfl⟩ := fire_eq_some hf
  rw [entry_add_ne h]; simp [entry, h]

theorem entry_get_ne (hg : q.get = some (some x, q')) (h : y ≠ x) : q'.entry y = q.entry y := by
  obtain ⟨z, rest, hz, hx, rfl⟩ | ⟨-, -, hx, -⟩ := get_eq_some hg
  · obtain rfl : x = z := Option.some.inj hx
    simp [entry, hz, h]
  · cases hx

theorem entry_get_none (hg : q.get = some (none, q')) : q' = q := by
  obtain ⟨_, _, _, hx, _⟩ | ⟨-, -, -, rfl⟩ := get_eq_some hg
  · cases hx
  · rfl

end

/-! ## The invariant is kept -/

theorem add_wf {q : RateLimitingQueue α} (hq : q.WF) (x : α) : (q.add x).WF := by
  refine ⟨?_, fun y => ?_⟩
  · unfold add; split_ifs with h₁ h₂ h₃
    · exact hq.nodup
    · exact hq.nodup
    · exact hq.nodup
    · exact hq.nodup.append (List.nodup_singleton x)
        (List.disjoint_singleton.mpr fun hx => h₂ ((hq.mem_queue x).mp hx).1)
  · rw [mem_add_queue q x hq, mem_add_dirty, add_processing, hq.mem_queue]
    by_cases hy : y = x
    · subst hy; simp only [true_and, or_false]; tauto
    · simp_all

theorem get_wf {q q' : RateLimitingQueue α} {r : Option α} (hq : q.WF) (h : q.get = some (r, q')) :
    q'.WF := by
  rcases get_eq_some h with ⟨x, rest, hx, -, rfl⟩ | ⟨-, -, -, rfl⟩
  · have hn := hx ▸ hq.nodup
    refine ⟨(List.nodup_cons.mp hn).2, fun y => ?_⟩
    have := hq.mem_queue y
    rw [hx] at this
    by_cases hy : y = x
    · subst hy; simp [(List.nodup_cons.mp hn).1]
    · simp_all
  · exact hq

theorem done_wf {q : RateLimitingQueue α} (hq : q.WF) {x : α} (hx : x ∈ q.processing) :
    (q.done x).WF := by
  refine ⟨?_, fun y => ?_⟩
  · unfold done; split_ifs
    · exact hq.nodup.append (List.nodup_singleton x)
        (List.disjoint_singleton.mpr fun h => ((hq.mem_queue x).mp h).2 hx)
    · exact hq.nodup
  · rw [mem_done_queue, done_dirty, done_processing, hq.mem_queue]
    by_cases hy : y = x <;> simp_all

theorem forget_wf {q : RateLimitingQueue α} (hq : q.WF) (x : α) : (q.forget x).WF :=
  ⟨hq.nodup, hq.mem_queue⟩

theorem addRateLimited_wf {q : RateLimitingQueue α} (hq : q.WF) (x : α) :
    (q.addRateLimited x).WF :=
  ⟨by simpa using hq.nodup, by simpa using hq.mem_queue⟩

theorem fire_wf {q q' : RateLimitingQueue α} (hq : q.WF) {x : α} (h : q.fire x = some q') :
    q'.WF := by
  obtain ⟨-, rfl⟩ := fire_eq_some h
  have hw : WF { q with waiting := q.waiting.erase x } := ⟨hq.nodup, hq.mem_queue⟩
  exact add_wf hw x

end RateLimitingQueue

end Gimlet
