import Mathlib.Logic.Function.Basic

/-!
# Saving a gitops commit

`pkg/dashboard/store/gitopsCommit.go`. `SaveOrUpdateGitopsCommit` reads the row
for the commit's sha; with no row it inserts the commit, with a row whose
status is final it does nothing, otherwise it copies the new status,
description, creation time and environment onto the row. The sqlite path runs
the statements directly; the other drivers open a transaction first, but run
the statements on `db`, not on `tx`, so the transaction holds nothing and its
`Commit` and deferred `Rollback` leave the table as it is.

Every database call's outcome is a parameter (`Faults`): `some msg` makes that
call fail with `msg`.
-/

namespace Gimlet

structure GitopsCommit where
  sha : String
  status : String
  statusDesc : String
  created : Int
  env : String
  deriving DecidableEq, Repr

structure Statuses where
  reconciliationSucceeded : String
  reconciliationFailed : String
  validationFailed : String

def Statuses.applied (st : Statuses) (s : String) : Bool :=
  s == st.reconciliationSucceeded || s == st.reconciliationFailed || s == st.validationFailed

inductive QueryError
  | errNoRows
  | failed (msg : String)
  deriving DecidableEq, Repr

structure Faults where
  begin : Option String := none
  queryRow : Option String := none
  insert : Option String := none
  update : Option String := none
  commit : Option String := none

namespace Meddler

def queryRow (fault : Option String) (table : String → Option GitopsCommit) (sha : String) :
    Except QueryError GitopsCommit :=
  match fault, table sha with
  | some m, _ => .error (.failed m)
  | none, some row => .ok row
  | none, none => .error .errNoRows

/-- `meddler.Insert`. The table keeps one row per sha, by the `UNIQUE` constraint
on `gitops_commits.sha` that the store's schema, not in the source, declares. -/
def insert (fault : Option String) (table : String → Option GitopsCommit) (g : GitopsCommit) :
    Option String × (String → Option GitopsCommit) :=
  match fault with
  | some m => (some m, table)
  | none =>
    if (table g.sha).isSome then (some "UNIQUE constraint failed: gitops_commits.sha", table)
    else (none, Function.update table g.sha (some g))

/-- `meddler.Update` of the row that was read by its sha. -/
def update (fault : Option String) (table : String → Option GitopsCommit) (row : GitopsCommit) :
    Option String × (String → Option GitopsCommit) :=
  match fault with
  | some m => (some m, table)
  | none => (none, Function.update table row.sha (some row))

theorem queryRow_eq_ok {fault : Option String} {table : String → Option GitopsCommit} {sha : String}
    {row : GitopsCommit} (h : queryRow fault table sha = .ok row) : table sha = some row := by
  unfold queryRow at h; split at h <;> simp_all

theorem insert_table_of_isSome (fault : Option String) {table : String → Option GitopsCommit}
    {g : GitopsCommit} (h : (table g.sha).isSome) : (insert fault table g).2 = table := by
  unfold insert; split
  · rfl
  · simp [h]

theorem insert_table_ne (fault : Option String) (table : String → Option GitopsCommit)
    {g : GitopsCommit} {k : String} (hk : k ≠ g.sha) : (insert fault table g).2 k = table k := by
  unfold insert; split
  · rfl
  · split_ifs <;> simp [Function.update_noteq hk]

theorem update_table_ne (fault : Option String) (table : String → Option GitopsCommit)
    {row : GitopsCommit} {k : String} (hk : k ≠ row.sha) : (update fault table row).2 k = table k := by
  unfold update; split
  · rfl
  · simp [Function.update_noteq hk]

end Meddler

def GitopsCommit.withStatusOf (saved g : GitopsCommit) : GitopsCommit :=
  { saved with status := g.status, statusDesc := g.statusDesc, created := g.created, env := g.env }

@[simp] theorem withStatusOf_sha (saved g : GitopsCommit) : (saved.withStatusOf g).sha = saved.sha := rfl

section
variable (st : Statuses) (f : Faults) (table : String → Option GitopsCommit) (g : GitopsCommit)

def saveOrUpdateGitopsCommitWithoutTx : (Bool × Option String) × (String → Option GitopsCommit) :=
  match Meddler.queryRow f.queryRow table g.sha with
  | .error .errNoRows => let r := Meddler.insert f.insert table g; ((true, r.1), r.2)
  | .error (.failed m) => ((false, some m), table)
  | .ok saved =>
    if st.applied saved.status then ((false, none), table)
    else let r := Meddler.update f.update table (saved.withStatusOf g); ((true, r.1), r.2)

def saveOrUpdateGitopsCommitWithTx : (Bool × Option String) × (String → Option GitopsCommit) :=
  match f.begin with
  | some m => ((false, some m), table)
  | none =>
    match Meddler.queryRow f.queryRow table g.sha with
    | .error .errNoRows =>
      let r := Meddler.insert f.insert table g
      match r.1 with
      | some m => ((false, some m), r.2)
      | none => ((true, f.commit), r.2)
    | .error (.failed m) => ((false, some m), table)
    | .ok saved =>
      if st.applied saved.status then ((false, none), table)
      else
        let r := Meddler.update f.update table (saved.withStatusOf g)
        match r.1 with
        | some m => ((false, some m), r.2)
        | none => ((true, f.commit), r.2)

def saveOrUpdateGitopsCommit (driver : String) : (Bool × Option String) × (String → Option GitopsCommit) :=
  if driver ≠ "sqlite" then saveOrUpdateGitopsCommitWithTx st f table g
  else saveOrUpdateGitopsCommitWithoutTx st f table g

/-! ## The two paths -/

theorem withTx_table (hb : f.begin = none) :
    (saveOrUpdateGitopsCommitWithTx st f table g).2 = (saveOrUpdateGitopsCommitWithoutTx st f table g).2 := by
  simp only [saveOrUpdateGitopsCommitWithTx, saveOrUpdateGitopsCommitWithoutTx, hb]
  rcases Meddler.queryRow f.queryRow table g.sha with (_ | m) | saved
  · cases (Meddler.insert f.insert table g).1 <;> rfl
  · rfl
  · dsimp only; split_ifs
    · rfl
    · cases (Meddler.update f.update table (saved.withStatusOf g)).1 <;> rfl

theorem withTx_result (hb : f.begin = none) (hc : f.commit = none) :
    (saveOrUpdateGitopsCommitWithTx st f table g).1 =
      match (saveOrUpdateGitopsCommitWithoutTx st f table g).1 with
      | (true, some m) => (false, some m)
      | r => r := by
  simp only [saveOrUpdateGitopsCommitWithTx, saveOrUpdateGitopsCommitWithoutTx, hb, hc]
  rcases Meddler.queryRow f.queryRow table g.sha with (_ | m) | saved
  · cases (Meddler.insert f.insert table g).1 <;> rfl
  · rfl
  · dsimp only; split_ifs
    · rfl
    · cases (Meddler.update f.update table (saved.withStatusOf g)).1 <;> rfl

end

/-! ## A save, then a read -/

/-- `Store.GitopsCommit`: the row for `sha`; no row is `nil, nil`. -/
def gitopsCommit (fault : Option String) (table : String → Option GitopsCommit) (sha : String) :
    Except String (Option GitopsCommit) :=
  match Meddler.queryRow fault table sha with
  | .error .errNoRows => .ok none
  | .error (.failed m) => .error m
  | .ok row => .ok (some row)

theorem gitopsCommit_none (table : String → Option GitopsCommit) (sha : String) :
    gitopsCommit none table sha = .ok (table sha) := by
  unfold gitopsCommit Meddler.queryRow; cases table sha <;> rfl

/-- The table holds each row under its own sha, as the unique key makes it. -/
def KeyedBySha (table : String → Option GitopsCommit) : Prop := ∀ k r, table k = some r → r.sha = k

/-- The row a save leaves for the commit's sha: the commit where there was none,
the row as it was when its status is final, and otherwise the row with the
commit's status, description, creation time and environment. -/
def savedRow (st : Statuses) (old : Option GitopsCommit) (g : GitopsCommit) : GitopsCommit :=
  match old with
  | none => g
  | some r => if st.applied r.status then r else r.withStatusOf g

theorem savedRow_some_of {st : Statuses} {R g : GitopsCommit}
    (h : st.applied R.status = true ∨ R.withStatusOf g = R) : savedRow st (some R) g = R := by
  simp only [savedRow]
  split_ifs with ha
  · rfl
  · exact h.resolve_left ha

theorem savedRow_savedRow (st : Statuses) (old : Option GitopsCommit) (g : GitopsCommit) :
    savedRow st (some (savedRow st old g)) g = savedRow st old g := by
  refine savedRow_some_of ?_
  cases old with
  | none => exact .inr rfl
  | some r =>
    by_cases hr : st.applied r.status = true
    · simp [savedRow, hr]
    · simp only [savedRow, hr, Bool.false_eq_true, if_false]; exact .inr rfl

section
variable (st : Statuses) {table : String → Option GitopsCommit} (g : GitopsCommit)

theorem savedRow_sha (hk : KeyedBySha table) : (savedRow st (table g.sha) g).sha = g.sha := by
  unfold savedRow
  split
  · rfl
  · split_ifs <;> simp [hk _ _ ‹_›]

theorem withoutTx_table_eq (hk : KeyedBySha table) :
    (saveOrUpdateGitopsCommitWithoutTx st {} table g).2 =
      Function.update table g.sha (some (savedRow st (table g.sha) g)) := by
  unfold saveOrUpdateGitopsCommitWithoutTx Meddler.queryRow
  cases hr : table g.sha with
  | none => simp [Meddler.insert, hr, savedRow]
  | some r =>
    simp only [savedRow]
    split_ifs with ha
    · rw [← hr]; exact (Function.update_eq_self _ _).symm
    · simp [Meddler.update, hk _ _ hr]

theorem save_table_eq (hk : KeyedBySha table) (driver : String) :
    (saveOrUpdateGitopsCommit st {} table g driver).2 =
      Function.update table g.sha (some (savedRow st (table g.sha) g)) := by
  unfold saveOrUpdateGitopsCommit
  split_ifs
  · rw [withTx_table st {} table g rfl, withoutTx_table_eq st g hk]
  · exact withoutTx_table_eq st g hk

theorem keyedBySha_save (hk : KeyedBySha table) (driver : String) :
    KeyedBySha (saveOrUpdateGitopsCommit st {} table g driver).2 := by
  intro k r h
  rw [save_table_eq st g hk] at h
  by_cases hkg : k = g.sha
  · subst hkg
    rw [Function.update_same, Option.some.injEq] at h
    exact h ▸ savedRow_sha st g hk
  · rw [Function.update_noteq hkg] at h
    exact hk k r h

end

section
variable {st : Statuses} {table : String → Option GitopsCommit} {g : GitopsCommit}

/-- With every statement succeeding, on either driver, a read after a save
returns what the save left: the commit where no row existed, the row unchanged
when its status was final, and otherwise the row with the commit's status,
description, creation time and environment. Every other sha reads as before. -/
theorem gitopsCommit_after_save (driver : String) (hk : KeyedBySha table) (sha : String) :
    gitopsCommit none (saveOrUpdateGitopsCommit st {} table g driver).2 sha =
      .ok (if sha = g.sha then some (savedRow st (table g.sha) g) else table sha) := by
  rw [gitopsCommit_none, save_table_eq st g hk]
  by_cases hs : sha = g.sha
  · subst hs; simp
  · simp [Function.update_noteq hs, hs]

/-- Saving the same commit twice, on either driver and with every statement
succeeding, leaves the table as one save does: a repeated status report changes
nothing more. -/
theorem save_twice (driver : String) (hk : KeyedBySha table) :
    (saveOrUpdateGitopsCommit st {} (saveOrUpdateGitopsCommit st {} table g driver).2 g driver).2 =
      (saveOrUpdateGitopsCommit st {} table g driver).2 := by
  rw [save_table_eq st g (keyedBySha_save st g hk driver), save_table_eq st g hk,
    Function.update_same, savedRow_savedRow, Function.update_idem]

end

def goStatuses : Statuses := ⟨"ReconciliationSucceeded", "ReconciliationFailed", "ValidationFailed"⟩

def newCommit : GitopsCommit := ⟨"a1b2c3", "NotReconciled", "", 1700000000, "staging"⟩

/-- On an empty table whose `Insert` fails, the sqlite path reports the commit
as saved and the transactional path does not. -/
theorem insert_failure_paths_differ :
    (saveOrUpdateGitopsCommitWithoutTx goStatuses { insert := some "disk I/O error" }
        (fun _ => none) newCommit).1 = (true, some "disk I/O error") ∧
    (saveOrUpdateGitopsCommitWithTx goStatuses { insert := some "disk I/O error" }
        (fun _ => none) newCommit).1 = (false, some "disk I/O error") :=
  ⟨rfl, rfl⟩

theorem keyedBySha_empty : KeyedBySha (fun _ => none) := fun _ _ h => nomatch h

theorem keyedBySha_single (r : GitopsCommit) :
    KeyedBySha (fun k => if k = r.sha then some r else none) :=
  fun k _ h => by dsimp only at h; split_ifs at h with hk; cases h; exact hk.symm

def progressingCommit : GitopsCommit :=
  { newCommit with status := "Progressing", statusDesc := "applying", created := 1700000100 }

def succeededCommit : GitopsCommit :=
  { newCommit with status := "ReconciliationSucceeded", created := 1700000200 }

/-- A save on an empty table inserts the commit; a save over a row whose status
is not final takes the new status, description, time and environment; a save
over a row whose status is final leaves it as it was. -/
theorem gitopsCommit_after_save_new :
    KeyedBySha (fun _ => none) ∧
    gitopsCommit none (saveOrUpdateGitopsCommit goStatuses {} (fun _ => none) newCommit "postgres").2
      "a1b2c3" = .ok (some newCommit) ∧
    KeyedBySha (fun k => if k = newCommit.sha then some newCommit else none) ∧
    gitopsCommit none (saveOrUpdateGitopsCommit goStatuses {}
        (fun k => if k = newCommit.sha then some newCommit else none) progressingCommit "sqlite").2
      "a1b2c3" = .ok (some progressingCommit) ∧
    KeyedBySha (fun k => if k = succeededCommit.sha then some succeededCommit else none) ∧
    gitopsCommit none (saveOrUpdateGitopsCommit goStatuses {}
        (fun k => if k = succeededCommit.sha then some succeededCommit else none) progressingCommit
        "postgres").2 "a1b2c3" = .ok (some succeededCommit) :=
  ⟨keyedBySha_empty, (gitopsCommit_after_save "postgres" keyedBySha_empty "a1b2c3").trans rfl,
   keyedBySha_single _, (gitopsCommit_after_save "sqlite" (keyedBySha_single _) "a1b2c3").trans rfl,
   keyedBySha_single _, (gitopsCommit_after_save "postgres" (keyedBySha_single _) "a1b2c3").trans rfl⟩

theorem save_twice_new :
    KeyedBySha (fun _ => none) ∧
    (saveOrUpdateGitopsCommit goStatuses {}
        (saveOrUpdateGitopsCommit goStatuses {} (fun _ => none) newCommit "sqlite").2 newCommit "sqlite").2 =
      (saveOrUpdateGitopsCommit goStatuses {} (fun _ => none) newCommit "sqlite").2 :=
  ⟨keyedBySha_empty, save_twice "sqlite" keyedBySha_empty⟩

end Gimlet
