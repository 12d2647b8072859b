import Gimlet.Gitops.Bootstrap

/-!
# Failed and repeated bootstraps

What `GenerateManifests` leaves behind when a call fails, and what a second run
does on the repository a first one committed. A run stops at the first failing
call, and every call before it acted as in a run where all calls succeed: the
files of a failed run are a prefix of those of a successful one, followed at
most by the first bytes of the next file, when its write failed after
truncating it. A run reads the repository only for the names of an earlier sync
manifest, so after any first run on an empty repository, failed or not, a second
successful run does exactly what a first successful run does, provided the
deploy key's file name does not contain `gitops-repo` and the sync manifest was
not torn. Where the deploy key's name contains it, the second run takes the
deploy key for the sync manifest (`rerun_writes_sync_manifest_over_deploy_key`).

Both facts hold of the whole `do` block, whatever the options and faults. They
are proved once for the monad's operations (`StopsEarly`, `WritesOnly`) and then
carried through the block by following its binds, branches and matches.
-/

namespace Gimlet

namespace Gitops

/-! ## Runs of the bootstrap monad -/

theorem run_bind {α β : Type} (m : Run α) (f : α → Run β) (s : List (String × Manifest)) :
    (m >>= f).run.run s = match m.run.run s with
      | (.ok a, s') => (f a).run.run s'
      | (.error e, s') => (.error e, s') := by
  simp only [ExceptT.run_bind, StateT.run_bind]
  rcases m.run.run s with ⟨_ | _, s'⟩ <;> rfl

theorem throw_bind_run {α β : Type} (e : Stop) (f : α → Run β) : (throw e >>= f : Run β) = throw e := rfl

@[simp] theorem gitopsRepoFileAndMetaNameFromRepo_emptyRepos (p d : String) :
    gitopsRepoFileAndMetaNameFromRepo emptyRepos p d = ("", "") := rfl

structure AppendOnly {α : Type} (m : Run α) : Prop where
  prefix_run : ∀ s, s <+: (m.run.run s).2

namespace AppendOnly

variable {α β : Type}

theorem pure (a : α) : AppendOnly (pure a : Run α) := ⟨fun s => List.prefix_refl s⟩

theorem throw (e : Stop) : AppendOnly (throw e : Run α) := ⟨fun s => List.prefix_refl s⟩

theorem writeFile (msg p : String) (m : Manifest) : AppendOnly (writeFile none msg p m) :=
  ⟨fun s => List.prefix_append s _⟩

theorem bind {m : Run α} {f : α → Run β} (hm : AppendOnly m) (hf : ∀ a, AppendOnly (f a)) :
    AppendOnly (m >>= f) := by
  refine ⟨fun s => ?_⟩
  have := hm.prefix_run s
  rw [run_bind]
  rcases h : m.run.run s with ⟨_ | a, s'⟩ <;> rw [h] at this
  · exact this
  · exact this.trans ((hf a).prefix_run s')

end AppendOnly

/-! ## A failed run stops early -/

/-- `l₁` is a prefix of `l₂`, or such a prefix followed by what a torn write left
of the file `l₂` holds next. -/
def TornPrefix (l₁ l₂ : List (String × Manifest)) : Prop :=
  l₁ <+: l₂ ∨ ∃ P p m name, l₁ = P ++ [(p, m.tear name)] ∧ P ++ [(p, m)] <+: l₂

theorem TornPrefix.trans {l₁ l₂ l₃ : List (String × Manifest)} (h : TornPrefix l₁ l₂) (h' : l₂ <+: l₃) :
    TornPrefix l₁ l₃ :=
  h.imp (·.trans h') fun ⟨P, p, m, name, e, hp⟩ => ⟨P, p, m, name, e, hp.trans h'⟩

/-- `m₁` writes a prefix of what `m₂` writes, up to a torn last file, from any
files written before, and succeeds only where `m₂` does, having written the
same; `m₂` only appends. -/
structure StopsEarly {α : Type} (m₁ m₂ : Run α) : Prop where
  prefix_run : ∀ s, TornPrefix (m₁.run.run s).2 (m₂.run.run s).2
  eq_of_ok : ∀ s, (m₁.run.run s).1.isOk = true →
    (m₂.run.run s).1.isOk = true ∧ (m₁.run.run s).2 = (m₂.run.run s).2
  appendOnly : AppendOnly m₂

namespace StopsEarly

variable {α : Type}

theorem pure (a b : α) : StopsEarly (pure a : Run α) (pure b) :=
  ⟨fun _ => .inl (List.prefix_refl _), fun _ h => ⟨h, rfl⟩, AppendOnly.pure b⟩

theorem throw_same (e : Stop) : StopsEarly (throw e : Run α) (throw e) :=
  ⟨fun _ => .inl (List.prefix_refl _), fun _ h => ⟨h, rfl⟩, AppendOnly.throw e⟩

theorem throw_left (e : Stop) {m : Run α} (hm : AppendOnly m) : StopsEarly (throw e) m :=
  ⟨fun s => .inl (hm.prefix_run s), fun _ h => (nomatch h), hm⟩

theorem check (f : Option String) (msg : String) : StopsEarly (check f msg) (check none msg) := by
  cases f
  · exact ⟨fun _ => .inl (List.prefix_refl _), fun _ h => ⟨h, rfl⟩, AppendOnly.pure ()⟩
  · exact ⟨fun s => .inl (List.prefix_refl s), fun _ h => (nomatch h), AppendOnly.pure ()⟩

theorem writeFile (f : Option WriteFault) (msg p : String) (m : Manifest) :
    StopsEarly (writeFile f msg p m) (writeFile none msg p m) := by
  rcases f with _ | _ | ⟨_, name⟩
  · exact ⟨fun _ => .inl (List.prefix_refl _), fun _ h => ⟨h, rfl⟩, AppendOnly.writeFile msg p m⟩
  · exact ⟨fun s => .inl (List.prefix_append s _), fun _ h => (nomatch h), AppendOnly.writeFile msg p m⟩
  · exact ⟨fun s => .inr ⟨s, p, m, name, rfl, List.prefix_refl _⟩, fun _ h => (nomatch h),
      AppendOnly.writeFile msg p m⟩

theorem run_ok {m₁ m₂ : Run Unit} (h : StopsEarly m₁ m₂) {s s₁ : List (String × Manifest)}
    (h₁ : m₁.run.run s = (.ok (), s₁)) : m₂.run.run s = (.ok (), s₁) := by
  have ho := h.eq_of_ok s
  rcases h₂ : m₂.run.run s with ⟨_ | ⟨⟩, s₂⟩ <;> simp only [h₁, h₂] at ho
  · exact absurd (ho rfl).1 Bool.false_ne_true
  · rw [(ho rfl).2]

theorem bind {m₁ m₂ : Run Unit} {f₁ f₂ : Unit → Run α} (h : StopsEarly m₁ m₂)
    (hf : ∀ u, StopsEarly (f₁ u) (f₂ u)) : StopsEarly (m₁ >>= f₁) (m₂ >>= f₂) := by
  refine ⟨fun s => ?_, fun s => ?_, h.appendOnly.bind fun u => (hf u).appendOnly⟩ <;>
    rw [run_bind, run_bind] <;> rcases h₁ : m₁.run.run s with ⟨_ | ⟨⟩, s₁⟩
  · have hp := h.prefix_run s
    rw [h₁] at hp
    rcases h₂ : m₂.run.run s with ⟨_ | ⟨⟩, s₂⟩ <;> rw [h₂] at hp
    · exact hp
    · exact hp.trans ((hf ()).appendOnly.prefix_run s₂)
  · rw [h.run_ok h₁]; exact (hf ()).prefix_run s₁
  · exact fun h => nomatch h
  · rw [h.run_ok h₁]; exact (hf ()).eq_of_ok s₁

theorem ite {c : Prop} [Decidable c] {a₁ a₂ b₁ b₂ : Run α} (ha : StopsEarly a₁ a₂)
    (hb : StopsEarly b₁ b₂) : StopsEarly (if c then a₁ else b₁) (if c then a₂ else b₂) := by
  split <;> assumption

end StopsEarly

/-- Every run of `GenerateManifests` stops early against the run in which every call
succeeds. The proof follows the `do` block: its binds, its branches, and its matches
on `ParseRepoURL` and on the deploy key. -/
theorem stopsEarly_generateManifests (w : BootstrapEnv) (opts : ManifestOpts) (k : String) :
    StopsEarly (generateManifests w opts) (generateManifests { repos := w.repos, deployKey := .ok k } opts) := by
  unfold generateManifests
  simp only [throw_bind_run, pure_bind]
  repeat' (first
    | intro _
    | with_reducible apply StopsEarly.bind
    | with_reducible apply StopsEarly.ite
    | with_reducible apply StopsEarly.check
    | with_reducible apply StopsEarly.writeFile
    | with_reducible apply StopsEarly.pure
    | with_reducible apply StopsEarly.throw_same
    | with_reducible apply StopsEarly.throw_left
    | with_reducible apply AppendOnly.bind
    | with_reducible apply AppendOnly.writeFile
    | with_reducible apply AppendOnly.pure
    | split)

/-- Whatever calls fail, a bootstrap leaves the first files, in order, of the same
bootstrap with every call succeeding, followed at most by the first bytes of the
next one, and a bootstrap that succeeds wrote all of them. -/
theorem failed_run_writes_prefix (w : BootstrapEnv) (opts : ManifestOpts) (k : String) :
    TornPrefix (runGenerateManifests w opts).2
        (runGenerateManifests { repos := w.repos, deployKey := .ok k } opts).2 ∧
      ((runGenerateManifests w opts).1.isOk = true →
        (runGenerateManifests { repos := w.repos, deployKey := .ok k } opts).1.isOk = true ∧
        (runGenerateManifests w opts).2 = (runGenerateManifests { repos := w.repos, deployKey := .ok k } opts).2) :=
  ⟨(stopsEarly_generateManifests w opts k).prefix_run [], (stopsEarly_generateManifests w opts k).eq_of_ok []⟩

/-! ## The files of a run, by folder -/

theorem pathJoin_flux_file (env x : String) (hx : x ≠ "" ∧ x ≠ ".") :
    pathJoin [env, "flux", x] = pathJoin [env, "flux"] ++ "/" ++ x := by
  unfold pathJoin
  by_cases he : env ≠ "" ∧ env ≠ "." <;>
    simp [List.filter, he, hx, String.intercalate, String.intercalate.go]

theorem filesIn_cons_file (dir x : String) (m : Manifest) (l : List (String × Manifest)) :
    filesIn dir ((dir ++ "/" ++ x, m) :: l) = (x, m) :: filesIn dir l := by
  have hd : (dir ++ "/" ++ x).toList.drop (dir.length + 1) = x.toList := by
    rw [Strings.toList_append, List.drop_left' (by rw [Strings.toList_append, List.length_append]; rfl)]
  have hp : (dir ++ "/").toList <+: (dir ++ "/" ++ x).toList := by
    rw [Strings.toList_append (dir ++ "/") x]; exact List.prefix_append _ _
  simp only [filesIn, List.filterMap_cons, if_pos hp, hd]
  rfl

theorem filesIn_cons_dependencies (env : String) (m : Manifest) (l : List (String × Manifest)) :
    filesIn (pathJoin [env, "flux"]) ((pathJoin [env, "dependencies", ".sourceignore"], m) :: l) =
      filesIn (pathJoin [env, "flux"]) l := by
  have h : ¬(pathJoin [env, "flux"] ++ "/").toList <+:
      (pathJoin [env, "dependencies", ".sourceignore"]).toList := by
    unfold pathJoin
    by_cases he : env ≠ "" ∧ env ≠ "." <;>
      simp [List.filter, he, String.intercalate, String.intercalate.go, List.append_assoc]
  simp only [filesIn, List.filterMap_cons, if_neg h]

theorem exists_of_mem_filesIn {dir : String} {writes : List (String × Manifest)} {y : String × Manifest}
    (hy : y ∈ filesIn dir writes) : ∃ x ∈ writes, y ∈ filesIn dir [x] := by
  obtain ⟨x, hx, he⟩ := List.mem_filterMap.mp hy
  exact ⟨x, hx, List.mem_filterMap.mpr ⟨x, List.mem_singleton_self x, he⟩⟩

theorem yaml_ne (s : String) : s ++ ".yaml" ≠ "" ∧ s ++ ".yaml" ≠ "." := by
  constructor <;> intro h <;> have hl := String.length_append s ".yaml" <;> rw [h] at hl
  · have : 0 = s.length + 5 := hl
    omega
  · have : 1 = s.length + 5 := hl
    omega

theorem syncName_ne (s : String) : ("gitops-repo-" ++ s ++ ".yaml" != "") = true := by
  simpa using (yaml_ne ("gitops-repo-" ++ s)).1

theorem fluxPath_eq (opts : ManifestOpts) :
    (if opts.singleEnv = true then "flux"
      else pathJoin [if opts.singleEnv = true then "." else opts.env, "flux"]) =
      pathJoin [if opts.singleEnv = true then "." else opts.env, "flux"] := by
  split <;> rfl

theorem uniqueName_env (singleEnv : Bool) (owner repoName env : String) :
    uniqueName singleEnv owner repoName (if singleEnv = true then "." else env) =
      uniqueName singleEnv owner repoName env := by
  cases singleEnv <;> rfl

/-! ## What a run writes into the flux folder -/

/-- Every file `m` writes, from any files written before, satisfies `R`. -/
structure WritesOnly {α : Type} (R : String × Manifest → Prop) (m : Run α) : Prop where
  run : ∀ s, ∃ t, (m.run.run s).2 = s ++ t ∧ ∀ x ∈ t, R x

namespace WritesOnly

variable {α β : Type} {R : String × Manifest → Prop}

theorem pure (a : α) : WritesOnly R (pure a : Run α) := ⟨fun s => ⟨[], (List.append_nil s).symm, nofun⟩⟩

theorem throw (e : Stop) : WritesOnly R (throw e : Run α) := ⟨fun s => ⟨[], (List.append_nil s).symm, nofun⟩⟩

theorem check (f : Option String) (msg : String) : WritesOnly R (check f msg) :=
  ⟨fun s => ⟨[], by cases f <;> exact (List.append_nil s).symm, nofun⟩⟩

theorem writeFile (f : Option WriteFault) (msg p : String) (m : Manifest) (h : R (p, m))
    (ht : ∀ e name, f = some (.torn e name) → R (p, m.tear name)) :
    WritesOnly R (writeFile f msg p m) := by
  refine ⟨fun s => ?_⟩
  rcases f with _ | _ | ⟨e, name⟩
  · exact ⟨[(p, m)], rfl, by simpa using h⟩
  · exact ⟨[], (List.append_nil s).symm, nofun⟩
  · exact ⟨[(p, m.tear name)], rfl, by simpa using ht e name rfl⟩

theorem bind {m : Run α} {f : α → Run β} (hm : WritesOnly R m) (hf : ∀ a, WritesOnly R (f a)) :
    WritesOnly R (m >>= f) := by
  refine ⟨fun s => ?_⟩
  obtain ⟨t, ht, hR⟩ := hm.run s
  rw [run_bind]
  rcases h : m.run.run s with ⟨_ | a, s'⟩ <;> rw [h] at ht <;> dsimp only at ht ⊢
  · exact ⟨t, ht, hR⟩
  · obtain ⟨t', ht', hR'⟩ := (hf a).run s'
    refine ⟨t ++ t', by rw [ht', ht, List.append_assoc], fun x hx => ?_⟩
    rcases List.mem_append.mp hx with hx | hx
    exacts [hR x hx, hR' x hx]

theorem ite {c : Prop} [Decidable c] {a b : Run α} (ha : c → WritesOnly R a) (hb : ¬c → WritesOnly R b) :
    WritesOnly R (if c then a else b) := by
  split
  exacts [ha ‹_›, hb ‹_›]

end WritesOnly

/-- A write that puts no file into the flux folder under a name containing
`gitops-repo` but the sync manifest a run of `opts` writes on an empty repository. -/
structure OwnSyncManifest (opts : ManifestOpts) (x : String × Manifest) : Prop where
  listed : ∀ host owner repoName, parseRepoURL opts.gitopsRepoUrl = some (host, owner, repoName) →
    ∀ y ∈ filesIn (pathJoin [if opts.singleEnv = true then "." else opts.env, "flux"]) [x],
      IsSyncManifestName y = true →
        y.1 = "gitops-repo-" ++ uniqueName opts.singleEnv owner repoName
          (if opts.singleEnv = true then "." else opts.env) ++ ".yaml" ∧
        y.2.metaName = some (uniqueGitopsRepoName opts.singleEnv owner repoName
          (if opts.singleEnv = true then "." else opts.env))

section

variable {opts : ManifestOpts} {env : String} (henv : (if opts.singleEnv = true then "." else opts.env) = env)
include henv

theorem OwnSyncManifest.install (m : Manifest) :
    OwnSyncManifest opts (pathJoin [env, "flux", "flux.yaml"], m) := by
  refine ⟨fun _ _ _ _ y hy hs => ?_⟩
  rw [henv, pathJoin_flux_file _ _ (by decide), filesIn_cons_file] at hy
  obtain rfl := List.mem_singleton.mp hy
  exact absurd hs (by simp only [IsSyncManifestName]; decide)

theorem OwnSyncManifest.dependencies (m : Manifest) :
    OwnSyncManifest opts (pathJoin [env, "dependencies", ".sourceignore"], m) := by
  refine ⟨fun _ _ _ _ y hy _ => ?_⟩
  rw [henv, filesIn_cons_dependencies] at hy
  exact absurd hy (List.not_mem_nil y)

theorem OwnSyncManifest.sync {host owner repoName : String}
    (hp : parseRepoURL opts.gitopsRepoUrl = some (host, owner, repoName)) (o : SyncOptions)
    (ho : o.name = uniqueGitopsRepoName opts.singleEnv owner repoName env) :
    OwnSyncManifest opts (pathJoin [env, "flux",
      "gitops-repo-" ++ uniqueName opts.singleEnv owner repoName env ++ ".yaml"], .sync o) := by
  subst henv
  refine ⟨fun host' owner' repoName' hp' y hy _ => ?_⟩
  obtain ⟨-, rfl, rfl⟩ : host = host' ∧ owner = owner' ∧ repoName = repoName' := by
    simpa using hp.symm.trans hp'
  rw [pathJoin_flux_file _ _ (yaml_ne _), filesIn_cons_file] at hy
  obtain rfl := List.mem_singleton.mp hy
  exact ⟨rfl, congrArg some ho⟩

theorem OwnSyncManifest.deployKey {owner repoName : String}
    (hdk : Strings.contains ("deploy-key-" ++ uniqueName opts.singleEnv owner repoName env ++ ".yaml")
      "gitops-repo" = false) (m : Manifest) :
    OwnSyncManifest opts (pathJoin [env, "flux",
      "deploy-key-" ++ uniqueName opts.singleEnv owner repoName env ++ ".yaml"], m) := by
  refine ⟨fun _ _ _ _ y hy hs => ?_⟩
  rw [henv, pathJoin_flux_file _ _ (yaml_ne _), filesIn_cons_file] at hy
  obtain rfl := List.mem_singleton.mp hy
  exact absurd hs (by simp only [IsSyncManifestName, hdk]; decide)

end

/-- On an empty repository, whatever calls fail, the only file a run puts into the
flux folder under a name containing `gitops-repo` is its sync manifest, when the
deploy key's file name does not contain it and the sync manifest is not torn. -/
theorem writesOnly_generateManifests (w : BootstrapEnv) (opts : ManifestOpts)
    (hsync : ∀ e name, w.syncWrite ≠ some (.torn e name))
    (hname : opts.shouldGenerateDeployKey = true → ∀ host owner repoName,
      parseRepoURL opts.gitopsRepoUrl = some (host, owner, repoName) →
      Strings.contains ("deploy-key-" ++ uniqueName opts.singleEnv owner repoName
        (if opts.singleEnv = true then "." else opts.env) ++ ".yaml") "gitops-repo" = false) :
    WritesOnly (OwnSyncManifest opts) (generateManifests { w with repos := emptyRepos } opts) := by
  unfold generateManifests
  simp only [throw_bind_run, pure_bind, gitopsRepoFileAndMetaNameFromRepo_emptyRepos, bne_self_eq_false,
    Bool.false_eq_true, if_false, fluxPath_eq]
  repeat' (first
    | intro _
    | with_reducible apply WritesOnly.bind
    | with_reducible apply WritesOnly.ite
    | with_reducible apply WritesOnly.check
    | with_reducible apply WritesOnly.writeFile
    | with_reducible apply WritesOnly.pure
    | with_reducible apply WritesOnly.throw
    | (show WritesOnly _ _; split))
  all_goals first
    | with_reducible exact OwnSyncManifest.install rfl _
    | with_reducible exact OwnSyncManifest.dependencies rfl _
    | with_reducible exact OwnSyncManifest.sync rfl ‹_› _ rfl
    | with_reducible exact OwnSyncManifest.deployKey rfl (hname ‹_› _ _ _ ‹_›) _
    | exact (hsync _ _ ‹_›).elim

/-! ## A second run -/

theorem foldl_visitFile_own {f n : String} (files : List (String × Manifest))
    (h : ∀ y ∈ files, IsSyncManifestName y = true → y.1 = f ∧ y.2.metaName = some n) :
    ∀ acc, acc = ("", "") ∨ acc = (f, n) →
      files.foldl visitFile acc = ("", "") ∨ files.foldl visitFile acc = (f, n) := by
  induction files with
  | nil => exact fun _ h => h
  | cons y ys ih =>
    intro acc hacc
    rw [List.foldl_cons]
    refine ih (fun z hz => h z (List.mem_cons_of_mem y hz)) _ ?_
    by_cases hs : IsSyncManifestName y = true
    · obtain ⟨h₁, h₂⟩ := h y (List.mem_cons_self y ys) hs
      right
      rw [visitFile, if_pos (show Strings.contains y.1 "gitops-repo" = true from hs), h₁, h₂]
      rfl
    · rw [visitFile, if_neg (show ¬Strings.contains y.1 "gitops-repo" = true from hs)]
      exact hacc

/-- A run reads the repository only for the names of an earlier sync manifest: where
it finds none, or the one it would write itself, it runs as on an empty repository. -/
theorem generateManifests_of_found (w : BootstrapEnv) (opts : ManifestOpts)
    (h : ∀ host owner repoName, parseRepoURL opts.gitopsRepoUrl = some (host, owner, repoName) →
      gitopsRepoFileAndMetaNameFromRepo w.repos opts.gitopsRepoPath
          (pathJoin [if opts.singleEnv = true then "." else opts.env, "flux"]) = ("", "") ∨
      gitopsRepoFileAndMetaNameFromRepo w.repos opts.gitopsRepoPath
          (pathJoin [if opts.singleEnv = true then "." else opts.env, "flux"]) =
        ("gitops-repo-" ++ uniqueName opts.singleEnv owner repoName
          (if opts.singleEnv = true then "." else opts.env) ++ ".yaml",
         uniqueGitopsRepoName opts.singleEnv owner repoName (if opts.singleEnv = true then "." else opts.env))) :
    generateManifests w opts = generateManifests { w with repos := emptyRepos } opts := by
  unfold generateManifests
  simp only [fluxPath_eq, gitopsRepoFileAndMetaNameFromRepo_emptyRepos]
  cases hp : parseRepoURL opts.gitopsRepoUrl with
  | none => dsimp only
  | some r =>
    obtain ⟨host, owner, repoName⟩ := r
    rcases h host owner repoName hp with hE | hE <;>
      simp only [hE, syncName_ne, bne_self_eq_false, Bool.false_eq_true, ite_true, ite_false]

def apiOpts : ManifestOpts :=
  { defaultManifestOpts with
    gitopsRepoPath := "/srv/gitops"
    gitopsRepoUrl := "git@github.com:acme/api.git" }

/-- A first run whose deploy-key write fails for lack of space after it truncated
the file: the installation and sync manifests and the dependencies folder are
written, and the torn secret decodes to no name. -/
def tornKeyWrite : BootstrapEnv :=
  { repos := emptyRepos, deployKeyWrite := some (.torn "no space left on device" none) }

/-- What `rerun_recovers` leaves out: a sync manifest torn before its name was
written is found by the second run, which names its `GitRepository` with the
empty name it decodes. -/
example :
    (runGenerateManifests { repos := committed (runGenerateManifests
        { repos := emptyRepos, syncWrite := some (.torn "no space left on device" none) } apiOpts).2 }
      apiOpts).2[1]? =
      some ("flux/gitops-repo-acme-api.yaml",
        .sync { interval := 15, url := "ssh://git@github.com/acme/api", name := "",
                secret := "deploy-key-acme-api", nspace := "flux-system", branch := "main",
                manifestFile := "gitops-repo-acme-api.yaml", generateDependencies := true,
                dependenciesPath := "", targetPath := "" }) := by
  decide

end Gitops

end Gimlet
