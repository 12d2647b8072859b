import Gimlet.Controller

/-!
# The agent process

The controllers of one process and the package variable `serverStartTime`
they share: `Run` writes it, every worker's startup filter reads it. A step is
one controller's action; `run` steps also write the shared variable. The
history `runs` lists the `Run` calls with the instant each recorded.
-/

namespace Gimlet

open Controller

structure Agent where
  serverStartTime : Time
  controllers : List Controller
  runs : List (Nat × Time)

def Controller.IsNew (c : Controller) : Prop :=
  (∃ name objType, c = newController name objType) ∨ ∃ name, c = newDynamicController name

namespace Agent

/-- The process after its controllers are built: `serverStartTime` is Go's
zero `time.Time`. -/
def init (cs : List Controller) : Agent := ⟨Time.zero, cs, []⟩

def step (a : Agent) (i : Nat) (l : Label) : Option Agent :=
  match a.controllers[i]? with
  | none => none
  | some c =>
    match c.step a.serverStartTime l with
    | none => none
    | some c' =>
      match l with
      | .run now _ =>
        some ⟨now, a.controllers.set i c', a.runs ++ [(i, now)]⟩
      | _ => some { a with controllers := a.controllers.set i c' }

inductive Reachable : Agent → Prop
  | init (cs : List Controller) (h : ∀ c ∈ cs, c.IsNew) : Reachable (init cs)
  | step {a a' : Agent} (i : Nat) (l : Label) : Reachable a → a.step i l = some a' → Reachable a'

def run (a : Agent) : List (Nat × Label) → Option Agent
  | [] => some a
  | (i, l) :: ls =>
    match a.step i l with
    | none => none
    | some a' => a'.run ls

theorem Reachable.run {a a' : Agent} (h : a.Reachable) :
    ∀ {ls : List (Nat × Label)}, a.run ls = some a' → a'.Reachable
  | [], e => by cases e; exact h
  | (i, l) :: ls, e => by
    simp only [Agent.run] at e
    split at e
    · cases e
    · exact Reachable.run (h.step i l ‹_›) e

theorem exists_reachable_of_run (cs : List Controller) (h : ∀ c ∈ cs, c.IsNew)
    (ls : List (Nat × Label)) (P : Agent → Prop) [DecidablePred P]
    (hr : ((init cs).run ls).any (fun a => decide (P a)) = true) : ∃ a, a.Reachable ∧ P a := by
  cases e : (init cs).run ls with
  | none => simp [e] at hr
  | some a => exact ⟨a, (Reachable.init cs h).run e, by simpa [e] using hr⟩

theorem step_eq_some {a a' : Agent} {i : Nat} {l : Label} (h : a.step i l = some a') :
    ∃ c c', a.controllers[i]? = some c ∧ c.step a.serverStartTime l = some c' ∧
      a'.controllers = a.controllers.set i c' := by
  unfold step at h
  split at h
  · cases h
  · rename_i c hc
    split at h
    · cases h
    · rename_i c' hc'
      refine ⟨c, c', hc, hc', ?_⟩
      split at h <;> (cases h; rfl)

theorem Reachable.forall_controller (P : Controller → Prop) (h₀ : ∀ c, c.IsNew → P c)
    (hs : ∀ c c' t l, P c → c.step t l = some c' → P c') {a : Agent} (ha : a.Reachable) :
    ∀ c ∈ a.controllers, P c := by
  induction ha with
  | init cs h => exact fun c hc => h₀ c (h c hc)
  | step i l _ hst ih =>
    obtain ⟨c, c', hc, hc', hset⟩ := step_eq_some hst
    rw [hset]
    intro d hd
    rcases List.mem_or_eq_of_mem_set hd with hd | rfl
    · exact ih d hd
    · exact hs c d _ l (ih c (List.getElem?_mem hc)) hc'

end Agent

end Gimlet
