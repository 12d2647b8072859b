import Gimlet.Store.GitopsCommit

/-!
# Concurrent saves

Calls of `SaveOrUpdateGitopsCommit` from different goroutines interleave at
their database statements. A call reads the row, decides, and later writes the
row it read with its own fields; nothing stops another call from writing in
between. Run alone, a call's statements compute
`saveOrUpdateGitopsCommitWithoutTx` or `saveOrUpdateGitopsCommitWithTx`.
-/

namespace Gimlet

/-- Where a call stands; `updating` keeps the row it read. -/
inductive Pc
  | start
  | began
  | inserting
  | updating (read : GitopsCommit)
  | committing
  | done (saved : Bool) (err : Option String)
  deriving DecidableEq, Repr

structure Call where
  withTx : Bool
  arg : GitopsCommit
  pc : Pc
  deriving DecidableEq, Repr

namespace Call

def new (driver : String) (g : GitopsCommit) : Call := ⟨driver ≠ "sqlite", g, .start⟩

def afterRead (st : Statuses) : Except QueryError GitopsCommit → Pc
  | .error .errNoRows => .inserting
  | .error (.failed m) => .done false (some m)
  | .ok saved => if st.applied saved.status then .done false none else .updating saved

theorem afterRead_eq_updating {st : Statuses} {x : Except QueryError GitopsCommit} {r : GitopsCommit}
    (h : afterRead st x = .updating r) : x = .ok r ∧ st.applied r.status = false := by
  unfold afterRead at h
  split at h
  · cases h
  · cases h
  · split_ifs at h with ha; cases h; exact ⟨rfl, by simpa using ha⟩

def afterWrite (c : Call) (err : Option String) : Pc :=
  if c.withTx then
    match err with
    | some m => .done false (some m)
    | none => .committing
  else .done true err

theorem afterWrite_ne_updating (c : Call) (err : Option String) (r : GitopsCommit) :
    c.afterWrite err ≠ .updating r := by
  unfold afterWrite; cases err <;> split_ifs <;> nofun

def step (st : Statuses) (table : String → Option GitopsCommit) (c : Call) (fault : Option String) :
    Option (Call × (String → Option GitopsCommit)) :=
  match c.pc with
  | .start =>
    if c.withTx then
      some ({ c with pc := match fault with | some m => .done false (some m) | none => .began }, table)
    else some ({ c with pc := afterRead st (Meddler.queryRow fault table c.arg.sha) }, table)
  | .began => some ({ c with pc := afterRead st (Meddler.queryRow fault table c.arg.sha) }, table)
  | .inserting =>
    let r := Meddler.insert fault table c.arg
    some ({ c with pc := c.afterWrite r.1 }, r.2)
  | .updating read =>
    let r := Meddler.update fault table (read.withStatusOf c.arg)
    some ({ c with pc := c.afterWrite r.1 }, r.2)
  | .committing => some ({ c with pc := .done true fault }, table)
  | .done _ _ => none

variable {st : Statuses} {table table' : String → Option GitopsCommit} {c c' : Call}
  {fault : Option String}

theorem step_arg (h : c.step st table fault = some (c', table')) : c'.arg = c.arg := by
  unfold step at h
  split at h <;> (try split_ifs at h) <;> first | cases h; rfl | cases h

theorem step_table (h : c.step st table fault = some (c', table')) :
    table' = table ∨ (c.pc = .inserting ∧ table' = (Meddler.insert fault table c.arg).2) ∨
      ∃ read, c.pc = .updating read ∧ table' = (Meddler.update fault table (read.withStatusOf c.arg)).2 := by
  unfold step at h
  split at h
  · split_ifs at h <;> (cases h; exact .inl rfl)
  · cases h; exact .inl rfl
  · cases h; exact .inr (.inl ⟨‹_›, rfl⟩)
  · cases h; exact .inr (.inr ⟨_, ‹_›, rfl⟩)
  · cases h; exact .inl rfl
  · cases h

theorem step_updating {read : GitopsCommit} (h : c.step st table fault = some (c', table'))
    (hc' : c'.pc = .updating read) :
    c.pc = .updating read ∨ (c'.arg = c.arg ∧ table c.arg.sha = some read ∧
      st.applied read.status = false) := by
  unfold step at h
  have hread : ∀ r, afterRead st (Meddler.queryRow fault table c.arg.sha) = .updating r →
      table c.arg.sha = some r ∧ st.applied r.status = false := fun r hr =>
    have h := afterRead_eq_updating hr
    ⟨Meddler.queryRow_eq_ok h.1, h.2⟩
  split at h
  · split_ifs at h
    · cases h; split at hc' <;> cases hc'
    · cases h; exact .inr ⟨rfl, hread read hc'⟩
  · cases h; exact .inr ⟨rfl, hread read hc'⟩
  · cases h; exact absurd hc' (afterWrite_ne_updating _ _ _)
  · cases h; exact absurd hc' (afterWrite_ne_updating _ _ _)
  · cases h; cases hc'
  · cases h

end Call

def Faults.at (f : Faults) (c : Call) : Option String :=
  match c.pc with
  | .start => if c.withTx then f.begin else f.queryRow
  | .began => f.queryRow
  | .inserting => f.insert
  | .updating _ => f.update
  | .committing => f.commit
  | .done _ _ => none

def Call.runAlone (st : Statuses) (f : Faults) :
    Nat → Call → (String → Option GitopsCommit) → Call × (String → Option GitopsCommit)
  | 0, c, t => (c, t)
  | n + 1, c, t =>
    match c.step st t (f.at c) with
    | none => (c, t)
    | some r => runAlone st f n r.1 r.2

/-- Run alone, a call computes `SaveOrUpdateGitopsCommit`. -/
theorem runAlone_new (st : Statuses) (f : Faults) (table : String → Option GitopsCommit)
    (g : GitopsCommit) (driver : String) :
    Call.runAlone st f 4 (Call.new driver g) table =
      (⟨driver ≠ "sqlite", g, .done (saveOrUpdateGitopsCommit st f table g driver).1.1
          (saveOrUpdateGitopsCommit st f table g driver).1.2⟩,
        (saveOrUpdateGitopsCommit st f table g driver).2) := by
  unfold saveOrUpdateGitopsCommit
  by_cases hd : driver = "sqlite"
  · simp only [hd, Call.new, ne_eq, not_true_eq_false, decide_False, ↓reduceIte,
      saveOrUpdateGitopsCommitWithoutTx, Call.runAlone, Faults.at, Call.step, Bool.false_eq_true]
    rcases Meddler.queryRow f.queryRow table g.sha with (_ | m) | saved
    · simp [Call.afterRead, Call.afterWrite, Call.runAlone, Call.step]
    · simp [Call.afterRead, Call.runAlone, Call.step]
    · by_cases ha : st.applied saved.status
      · simp [Call.afterRead, ha, Call.runAlone, Call.step]
      · simp [Call.afterRead, ha, Call.afterWrite, Call.runAlone, Call.step, Faults.at]
  · simp only [hd, Call.new, ne_eq, not_false_eq_true, decide_True, ↓reduceIte,
      saveOrUpdateGitopsCommitWithTx, Call.runAlone, Faults.at, Call.step]
    rcases f.begin with _ | m
    · rcases Meddler.queryRow f.queryRow table g.sha with (_ | m) | saved
      · rcases hi : (Meddler.insert f.insert table g).1 with _ | m <;>
          simp [Call.afterRead, Call.afterWrite, Call.runAlone, Call.step, Faults.at, hi]
      · simp [Call.afterRead, Call.runAlone, Call.step]
      · by_cases ha : st.applied saved.status
        · simp [Call.afterRead, ha, Call.runAlone, Call.step]
        · rcases hu : (Meddler.update f.update table (saved.withStatusOf g)).1 with _ | m <;>
            simp [Call.afterRead, ha, Call.afterWrite, Call.runAlone, Call.step, Faults.at, hu]
    · simp [Call.runAlone, Call.step]

/-! ## Interleaved calls -/

structure Db where
  table : String → Option GitopsCommit
  calls : List Call

inductive DbLabel
  /-- A goroutine calls `SaveOrUpdateGitopsCommit`. -/
  | call (driver : String) (g : GitopsCommit)
  /-- Call `i` runs its next statement, with outcome `fault`. -/
  | step (i : Nat) (fault : Option String)
  deriving DecidableEq, Repr

def Db.step (st : Statuses) (d : Db) : DbLabel → Option Db
  | .call driver g => some { d with calls := d.calls ++ [Call.new driver g] }
  | .step i fault =>
    match d.calls[i]? with
    | none => none
    | some c => (c.step st d.table fault).map fun r => ⟨r.2, d.calls.set i r.1⟩

inductive Db.Reachable (st : Statuses) : Db → Prop
  | init (table : String → Option GitopsCommit) (h : KeyedBySha table) : Reachable st ⟨table, []⟩
  | step {d d' : Db} (l : DbLabel) : Reachable st d → d.step st l = some d' → Reachable st d'

def Db.run (st : Statuses) (d : Db) : List DbLabel → Option Db
  | [] => some d
  | l :: ls =>
    match d.step st l with
    | none => none
    | some d' => d'.run st ls

namespace Db

variable {st : Statuses} {d d' : Db}

theorem step_call_eq_some {i : Nat} {fault : Option String} (h : d.step st (.step i fault) = some d') :
    ∃ c r, d.calls[i]? = some c ∧ c.step st d.table fault = some r ∧ d' = ⟨r.2, d.calls.set i r.1⟩ := by
  simp only [Db.step] at h
  split at h
  · cases h
  · obtain ⟨r, hr, rfl⟩ := Option.map_eq_some'.mp h
    exact ⟨_, r, ‹_›, hr, rfl⟩

/-- Rows sit under their sha, and a call about to update holds a row it read
under its own sha, whose status was not final. -/
structure Inv (st : Statuses) (d : Db) : Prop where
  keyed : KeyedBySha d.table
  reads : ∀ c ∈ d.calls, ∀ read, c.pc = .updating read →
    read.sha = c.arg.sha ∧ st.applied read.status = false

theorem keyed_insert {table : String → Option GitopsCommit} (h : KeyedBySha table)
    (fault : Option String) (g : GitopsCommit) : KeyedBySha (Meddler.insert fault table g).2 := by
  intro k row hk
  unfold Meddler.insert at hk; split at hk
  · exact h k row hk
  · split_ifs at hk
    · exact h k row hk
    · by_cases hkg : k = g.sha
      · subst hkg; simp at hk; rw [← hk]
      · simp only [Function.update_noteq hkg] at hk; exact h k row hk

theorem keyed_update {table : String → Option GitopsCommit} (h : KeyedBySha table)
    (fault : Option String) (row : GitopsCommit) : KeyedBySha (Meddler.update fault table row).2 := by
  intro k r hk
  unfold Meddler.update at hk; split at hk
  · exact h k r hk
  · by_cases hkr : k = row.sha
    · subst hkr; simp at hk; rw [← hk]
    · simp only [Function.update_noteq hkr] at hk; exact h k r hk

theorem Inv.step (hi : d.Inv st) {l : DbLabel} (h : d.step st l = some d') : d'.Inv st := by
  cases l with
  | call driver g =>
    cases h
    refine ⟨hi.keyed, fun c hc read hr => ?_⟩
    rcases List.mem_append.mp hc with hc | hc
    · exact hi.reads c hc read hr
    · simp [Call.new] at hc; subst hc; cases hr
  | step i fault =>
    obtain ⟨c, ⟨c', t'⟩, hc, hs, rfl⟩ := step_call_eq_some h
    refine ⟨?_, fun x hx read hr => ?_⟩
    · rcases Call.step_table hs with rfl | ⟨-, rfl⟩ | ⟨_, -, rfl⟩
      · exact hi.keyed
      · exact keyed_insert hi.keyed _ _
      · exact keyed_update hi.keyed _ _
    · rcases List.mem_or_eq_of_mem_set hx with hx | rfl
      · exact hi.reads x hx read hr
      · rw [Call.step_arg hs]
        rcases Call.step_updating hs hr with hpc | ⟨-, hrow, hst⟩
        · exact hi.reads c (List.getElem?_mem hc) read hpc
        · exact ⟨hi.keyed _ _ hrow, hst⟩

theorem Reachable.inv (h : d.Reachable st) : d.Inv st := by
  induction h with
  | init table hk => exact ⟨hk, by simp⟩
  | step l _ hs ih => exact ih.step hs

theorem exists_reachable_of_run (st : Statuses) (table : String → Option GitopsCommit)
    (hk : KeyedBySha table) (ls : List DbLabel) (P : Db → Prop) [DecidablePred P]
    (hr : ((⟨table, []⟩ : Db).run st ls).any (fun d => decide (P d)) = true) :
    ∃ d, d.Reachable st ∧ P d := by
  suffices ∀ d : Db, d.Reachable st → ∀ ls, (d.run st ls).any (fun d => decide (P d)) = true →
      ∃ d, d.Reachable st ∧ P d from this _ (.init table hk) ls hr
  intro d hd ls
  induction ls generalizing d with
  | nil => intro h; exact ⟨d, hd, by simpa [Db.run] using h⟩
  | cons l ls ih =>
    simp only [Db.run]
    split
    · simp
    · exact ih _ (hd.step l ‹_›)

end Db

/-! ## A final status is overwritten only by a stale read -/

/-- A step that changes a stored row is the `Update` of a call that read that
row while its status was not final. So once a row's status is final, only a
call that read it before can change it. -/
theorem final_row_changed_only_by_stale_update {st : Statuses} {d d' : Db} {l : DbLabel}
    (hd : d.Reachable st) (h : d.step st l = some d') {sha : String} {row : GitopsCommit}
    (hrow : d.table sha = some row) (hch : d'.table sha ≠ d.table sha) :
    ∃ i fault c read, l = .step i fault ∧ d.calls[i]? = some c ∧ c.pc = .updating read ∧
      read.sha = sha ∧ st.applied read.status = false := by
  cases l with
  | call driver g => cases h; exact absurd rfl hch
  | step i fault =>
    obtain ⟨c, ⟨c', t'⟩, hc, hs, rfl⟩ := Db.step_call_eq_some h
    rcases Call.step_table hs with rfl | ⟨-, rfl⟩ | ⟨read, hpc, rfl⟩
    · exact absurd rfl hch
    · by_cases hk : sha = c.arg.sha
      · subst hk; exact absurd (by rw [Meddler.insert_table_of_isSome _ (by simp [hrow])]) hch
      · exact absurd (Meddler.insert_table_ne _ _ hk) hch
    · by_cases hk : sha = read.sha
      · have hr := hd.inv.reads c (List.getElem?_mem hc) read hpc
        exact ⟨i, fault, c, read, rfl, hc, hpc, hk.symm, hr.2⟩
      · exact absurd (Meddler.update_table_ne _ _ (by simpa using hk)) hch

def pendingRow : GitopsCommit := ⟨"a1b2c3", "NotReconciled", "", 1700000000, "staging"⟩

def staleReads : List DbLabel :=
  [.call "sqlite" { pendingRow with status := "Progressing" },
   .call "sqlite" { pendingRow with status := "ReconciliationSucceeded" },
   .step 0 none, .step 1 none, .step 1 none]

theorem stale_reads_reach : ∃ d : Db, d.Reachable goStatuses ∧
    (d.table "a1b2c3").map (·.status) = some "ReconciliationSucceeded" ∧
    ((d.step goStatuses (.step 0 none)).bind fun d' => (d'.table "a1b2c3").map (·.status)) =
      some "Progressing" :=
  Db.exists_reachable_of_run goStatuses (fun k => if k = "a1b2c3" then some pendingRow else none)
    (keyedBySha_single pendingRow) staleReads _ (by decide)

theorem final_row_changed_only_by_stale_update_a1b2c3 : ∃ d d' : Db, d.Reachable goStatuses ∧
    d.step goStatuses (.step 0 none) = some d' ∧ ∃ row, d.table "a1b2c3" = some row ∧
    d'.table "a1b2c3" ≠ d.table "a1b2c3" ∧
    ∃ i fault c read, DbLabel.step 0 none = .step i fault ∧ d.calls[i]? = some c ∧
      c.pc = .updating read ∧ read.sha = "a1b2c3" ∧ goStatuses.applied read.status = false := by
  obtain ⟨d, hd, h₁, h₂⟩ := stale_reads_reach
  obtain ⟨row, hrow, -⟩ := Option.map_eq_some'.mp h₁
  cases hs : d.step goStatuses (.step 0 none) with
  | none => simp [hs] at h₂
  | some d' =>
    have hch : d'.table "a1b2c3" ≠ d.table "a1b2c3" := fun e => by
      simp [hs, e, h₁] at h₂
    exact ⟨d, d', hd, hs, row, hrow, hch, final_row_changed_only_by_stale_update hd hs hrow hch⟩

/-- The second call made the status final; the first call's stale `Update`
then writes `Progressing` over it. -/
theorem stale_update_overwrites_final_status : ∃ d d' : Db, d.Reachable goStatuses ∧
    d.step goStatuses (.step 0 none) = some d' ∧ goStatuses.applied "ReconciliationSucceeded" = true ∧
    (d.table "a1b2c3").map (·.status) = some "ReconciliationSucceeded" ∧
    (d'.table "a1b2c3").map (·.status) = some "Progressing" := by
  obtain ⟨d, hd, h₁, h₂⟩ := stale_reads_reach
  cases hs : d.step goStatuses (.step 0 none) with
  | none => simp [hs] at h₂
  | some d' => exact ⟨d, d', hd, hs, rfl, h₁, by simpa [hs] using h₂⟩

end Gimlet
