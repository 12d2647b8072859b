import Gimlet.Gitops.RepoUrl

/-!
# Bootstrapping a gitops repository

`GenerateManifests` of `pkg/gitops/bootstrap.go`: it writes the flux
installation manifests, the sync manifest (a `GitRepository` and a
`Kustomization`), the dependencies folder and the deploy-key secret into the
gitops repository. The sync manifest's file and resource names come from
`UniqueName` and `UniqueGitopsRepoName`, unless `GitopsRepoFileAndMetaNameFromRepo`
finds a sync manifest of an earlier run in the flux folder on the head branch:
the last file, in the order Go's map iteration visits the folder, whose name
contains `gitops-repo`.

Every call outside this package is a parameter of the run (`BootstrapEnv`):
`some msg` makes it fail with `msg`. A file write can also fail after it
truncated the file, leaving its first bytes. File contents are the documents
the generators produce, not their YAML text.

Names are ASCII strings here: `UniqueName` cuts the owner to 10 bytes and
lowers it with `strings.ToLower`, which the model does by characters and on
ASCII letters (`Strings.IsAscii`).
-/

namespace Gimlet

namespace Gitops

structure ManifestOpts where
  shouldGenerateController : Bool
  shouldGenerateDependencies : Bool
  kustomizationPerApp : Bool
  env : String
  singleEnv : Bool
  gitopsRepoPath : String
  shouldGenerateKustomizationAndRepo : Bool
  shouldGenerateDeployKey : Bool
  gitopsRepoUrl : String
  branch : String
  deriving DecidableEq, Repr

/-- `DefaultManifestOpts`; the fields it does not set keep Go's zero value. -/
def defaultManifestOpts : ManifestOpts where
  shouldGenerateController := true
  shouldGenerateDependencies := true
  kustomizationPerApp := false
  env := ""
  singleEnv := true
  gitopsRepoPath := ""
  shouldGenerateKustomizationAndRepo := true
  shouldGenerateDeployKey := true
  gitopsRepoUrl := ""
  branch := "main"

/-- The `sync.Options` that `GenerateManifests` sets; the interval in seconds. -/
structure SyncOptions where
  interval : Nat
  url : String
  name : String
  secret : String
  nspace : String
  branch : String
  manifestFile : String
  generateDependencies : Bool
  dependenciesPath : String
  targetPath : String
  deriving DecidableEq, Repr

inductive Manifest
  /-- `install.Generate`'s manifests, for a flux version and target path. -/
  | install (version targetPath : String)
  /-- `sync.Generate`'s `GitRepository` and `Kustomization`. -/
  | sync (opts : SyncOptions)
  /-- The empty `.sourceignore` of the dependencies folder. -/
  | sourceignore
  /-- `generateDeployKey`'s `Secret`, by name and the host whose key it trusts. -/
  | deployKey (name host : String)
  /-- The first bytes of `whole`'s text, from which `yaml.Unmarshal` decodes the
  `metadata.name` `name`, or none. -/
  | torn (whole : Manifest) (name : Option String)
  deriving DecidableEq, Repr

/-- The `metadata.name` that `yaml.Unmarshal` into a `GitRepository` takes from
a file: that of its first document (the `flux-system` namespace of the
installation manifests). -/
def Manifest.metaName : Manifest → Option String
  | .install _ _ => some "flux-system"
  | .sync o => some o.name
  | .sourceignore => none
  | .deployKey name _ => some name
  | .torn _ name => name

/-- What a write that fails after truncating the file leaves of `m`: the empty
`.sourceignore` is whole already. -/
def Manifest.tear (m : Manifest) (name : Option String) : Manifest :=
  match m with
  | .sourceignore => .sourceignore
  | m => .torn m name

/-- `path.Join` of names that hold no `/`, `.` or `..` segment inside: the empty
and `.` elements drop out. -/
def pathJoin (elems : List String) : String :=
  "/".intercalate (elems.filter fun e => e ≠ "" ∧ e ≠ ".")

/-- `UniqueName`, whose `owner[:10]` cuts bytes: characters on ASCII owners. -/
def uniqueName (singleEnv : Bool) (owner repoName env : String) : String :=
  let owner := if owner.length > 10 then ⟨owner.toList.take 10⟩ else owner
  if singleEnv then Strings.toLower owner ++ "-" ++ Strings.toLower repoName
  else Strings.toLower owner ++ "-" ++ Strings.toLower repoName ++ "-" ++ Strings.toLower env

def uniqueGitopsRepoName (singleEnv : Bool) (owner repoName env : String) : String :=
  let owner := if owner.length > 10 then ⟨owner.toList.take 10⟩ else owner
  let repoName := Strings.trimPrefix repoName "gitops-"
  if singleEnv then Strings.toLower owner ++ "-" ++ Strings.toLower repoName
  else Strings.toLower owner ++ "-" ++ Strings.toLower repoName ++ "-" ++ Strings.toLower env

theorem uniqueGitopsRepoName_eq (singleEnv : Bool) (owner repoName env : String) :
    uniqueGitopsRepoName singleEnv owner repoName env =
      uniqueName singleEnv owner (Strings.trimPrefix repoName "gitops-") env := rfl

/-- The repositories on disk, by path: `none` where `git.PlainOpen` finds none;
otherwise the files of each folder on the head branch, each with the document
it holds, in the order Go's map iteration visits them. -/
abbrev Repos := String → Option (String → List (String × Manifest))

/-- One iteration of `GitopsRepoFileAndMetaNameFromRepo`'s loop over the files:
a file whose name contains `gitops-repo` replaces the name found so far, and its
document is decoded over the `GitRepository` decoded so far. -/
def visitFile (acc : String × String) (f : String × Manifest) : String × String :=
  if Strings.contains f.1 "gitops-repo" then (f.1, f.2.metaName.getD acc.2) else acc

def gitopsRepoFileAndMetaNameFromRepo (repos : Repos) (repoPath contentPath : String) :
    String × String :=
  match repos repoPath with
  | none => ("", "")
  | some headFolder => (headFolder contentPath).foldl visitFile ("", "")

/-- How a file write fails: before the file is opened, or after `os.WriteFile`
truncated it, with `name` the name decoded from the bytes it wrote. -/
inductive WriteFault
  | noFile (err : String)
  | torn (err : String) (name : Option String)
  deriving DecidableEq, Repr

structure BootstrapEnv where
  repos : Repos
  installGenerate : Option String := none
  installWrite : Option WriteFault := none
  syncGenerate : Option String := none
  syncWrite : Option WriteFault := none
  mkdirAll : Option String := none
  sourceignoreWrite : Option WriteFault := none
  /-- `generateDeployKey`: the public key, or the error of the key generation,
  the host-key scan or the marshalling. -/
  deployKey : Except String String := .ok "ssh-ed25519 AAAA"
  deployKeyWrite : Option WriteFault := none

inductive Stop
  | error (msg : String)
  | panic
  deriving DecidableEq, Repr

abbrev Run := ExceptT Stop (StateM (List (String × Manifest)))

def check (fault : Option String) (msg : String) : Run Unit :=
  match fault with
  | some e => throw (.error (msg ++ e))
  | none => pure ()

/-- `os.WriteFile`, and manifestgen's `Manifest.WriteFile` that ends in it: a
write that fails with `fault`, reported as `msg` followed by its error. -/
def writeFile (fault : Option WriteFault) (msg path : String) (m : Manifest) : Run Unit :=
  match fault with
  | none => modify (· ++ [(path, m)])
  | some (.noFile e) => throw (.error (msg ++ e))
  | some (.torn e name) => do
    modify (· ++ [(path, m.tear name)])
    throw (.error (msg ++ e))

/-- `GenerateManifests`: the sync manifest's file name, the public key and the
secret's file name. -/
def generateManifests (w : BootstrapEnv) (opts : ManifestOpts) : Run (String × String × String) := do
  let mut publicKey := ""
  let mut gitopsRepoFileName := ""
  let mut secretFileName := ""
  if !opts.singleEnv && opts.env == "" then
    throw (.error "either `--env` or `--single-env` is mandatory")
  if opts.singleEnv && opts.env != "" then
    throw (.error "`--env` and `--single-env` are mutually exclusive")
  let env := if opts.singleEnv then "." else opts.env
  if opts.shouldGenerateController then
    check w.installGenerate "cannot generate installation manifests "
    writeFile w.installWrite "cannot write installation manifests "
      (pathJoin [env, "flux", "flux.yaml"]) (.install "v0.41.2" opts.env)
  if opts.shouldGenerateKustomizationAndRepo then
    let some (host, owner, repoName) := parseRepoURL opts.gitopsRepoUrl | throw .panic
    let mut gitopsRepoName := uniqueGitopsRepoName opts.singleEnv owner repoName env
    gitopsRepoFileName := "gitops-repo-" ++ uniqueName opts.singleEnv owner repoName env ++ ".yaml"
    let secretName := "deploy-key-" ++ uniqueName opts.singleEnv owner repoName env
    secretFileName := secretName ++ ".yaml"
    let fluxPath := if opts.singleEnv then "flux" else pathJoin [env, "flux"]
    let existing := gitopsRepoFileAndMetaNameFromRepo w.repos opts.gitopsRepoPath fluxPath
    if existing.1 != "" then
      gitopsRepoName := existing.2
      gitopsRepoFileName := existing.1
    let syncOpts : SyncOptions :=
      { interval := 15, url := "ssh://git@" ++ host ++ "/" ++ owner ++ "/" ++ repoName,
        name := gitopsRepoName, secret := secretName, nspace := "flux-system",
        branch := opts.branch, manifestFile := gitopsRepoFileName,
        generateDependencies := opts.shouldGenerateDependencies,
        dependenciesPath := if opts.singleEnv then "" else env,
        targetPath :=
          if opts.kustomizationPerApp then fluxPath else if opts.singleEnv then "" else env }
    check w.syncGenerate "cannot generate git manifests "
    writeFile w.syncWrite "cannot write git manifests "
      (pathJoin [env, "flux", syncOpts.manifestFile]) (.sync syncOpts)
    if opts.shouldGenerateDependencies then
      check w.mkdirAll "cannot create dependencies folder "
      writeFile w.sourceignoreWrite "cannot populate dependencies folder "
        (pathJoin [env, "dependencies", ".sourceignore"]) .sourceignore
    if opts.shouldGenerateDeployKey then
      match w.deployKey with
      | .error e => throw (.error ("cannot generate deploy key " ++ e))
      | .ok pKey =>
        publicKey := pKey
        writeFile w.deployKeyWrite "cannot write deploy key "
          (pathJoin [env, "flux", secretFileName]) (.deployKey secretName host)
  return (gitopsRepoFileName, publicKey, secretFileName)

def runGenerateManifests (w : BootstrapEnv) (opts : ManifestOpts) :
    Except Stop (String × String × String) × List (String × Manifest) :=
  (generateManifests w opts).run.run []

/-! ## The sync manifest of an earlier run -/

def IsSyncManifestName (f : String × Manifest) : Bool := Strings.contains f.1 "gitops-repo"

theorem foldl_visitFile_fst (files : List (String × Manifest)) (acc : String × String) :
    (files.foldl visitFile acc).1 =
      ((files.filter IsSyncManifestName).getLast?.map Prod.fst).getD acc.1 := by
  induction files generalizing acc with
  | nil => rfl
  | cons f fs ih =>
    rw [List.foldl_cons, ih]
    by_cases hf : IsSyncManifestName f
    · have hv : (visitFile acc f).1 = f.1 := by
        rw [visitFile, if_pos (show Strings.contains f.1 "gitops-repo" = true from hf)]
      rw [List.filter_cons_of_pos hf, List.getLast?_cons, hv]
      cases (fs.filter IsSyncManifestName).getLast? <;> rfl
    · have hv : visitFile acc f = acc := by
        rw [visitFile, if_neg (show ¬Strings.contains f.1 "gitops-repo" = true from hf)]
      rw [List.filter_cons_of_neg hf, hv]

/-- When one file of the folder has `gitops-repo` in its name, every order in
which the loop visits the folder finds that file. -/
theorem foldl_visitFile_of_unique {files order : List (String × Manifest)} (hp : order.Perm files)
    {f : String × Manifest} (hf : files.filter IsSyncManifestName = [f]) :
    (order.foldl visitFile ("", "")).1 = f.1 := by
  have h : order.filter IsSyncManifestName = [f] :=
    List.perm_singleton.mp (hf ▸ hp.filter IsSyncManifestName)
  rw [foldl_visitFile_fst, h]
  rfl

theorem foldl_visitFile_of_unique_swapped :
    [("gitops-repo-acme-api.yaml", Manifest.sourceignore), ("flux.yaml", Manifest.sourceignore)].Perm
      [("flux.yaml", Manifest.sourceignore), ("gitops-repo-acme-api.yaml", Manifest.sourceignore)] ∧
    [("flux.yaml", Manifest.sourceignore), ("gitops-repo-acme-api.yaml", Manifest.sourceignore)].filter
      IsSyncManifestName = [("gitops-repo-acme-api.yaml", Manifest.sourceignore)] ∧
    ([("gitops-repo-acme-api.yaml", Manifest.sourceignore), ("flux.yaml", Manifest.sourceignore)].foldl
      visitFile ("", "")).1 = ("gitops-repo-acme-api.yaml", Manifest.sourceignore).1 :=
  have hp : [("gitops-repo-acme-api.yaml", Manifest.sourceignore), ("flux.yaml", Manifest.sourceignore)].Perm
      [("flux.yaml", Manifest.sourceignore), ("gitops-repo-acme-api.yaml", Manifest.sourceignore)] :=
    List.Perm.swap _ _ []
  have hf : [("flux.yaml", Manifest.sourceignore), ("gitops-repo-acme-api.yaml", Manifest.sourceignore)].filter
      IsSyncManifestName = [("gitops-repo-acme-api.yaml", Manifest.sourceignore)] := by decide
  ⟨hp, hf, foldl_visitFile_of_unique hp hf⟩

def filesIn (dir : String) (writes : List (String × Manifest)) : List (String × Manifest) :=
  writes.filterMap fun w =>
    if (dir ++ "/").toList <+: w.1.toList then some (⟨w.1.toList.drop (dir.length + 1)⟩, w.2)
    else none

/-- A repository whose head branch holds exactly what `writes` wrote, each folder
visited in the order of its writes. -/
def committed (writes : List (String × Manifest)) : Repos := fun _ => some fun dir => filesIn dir writes

def emptyRepos : Repos := fun _ => some fun _ => []

def acmeOpts : ManifestOpts :=
  { defaultManifestOpts with
    gitopsRepoPath := "/srv/gitops"
    gitopsRepoUrl := "git@github.com:acme/gitops-repository.git" }

/-- The unique name `acme-gitops-repository` contains `gitops-repo`, so the
deploy-key file of the first run does too. Visited after the sync manifest, it is
taken for the sync manifest: the second run names its `GitRepository` after the
secret and writes it to the secret's path, where the deploy key then overwrites it. -/
theorem rerun_writes_sync_manifest_over_deploy_key :
    (filesIn "flux" (runGenerateManifests { repos := emptyRepos } acmeOpts).2).map Prod.fst =
      ["flux.yaml", "gitops-repo-acme-gitops-repository.yaml",
        "deploy-key-acme-gitops-repository.yaml"] ∧
    gitopsRepoFileAndMetaNameFromRepo (committed (runGenerateManifests { repos := emptyRepos } acmeOpts).2)
        "/srv/gitops" "flux" =
      ("deploy-key-acme-gitops-repository.yaml", "deploy-key-acme-gitops-repository") ∧
    (runGenerateManifests { repos := committed (runGenerateManifests { repos := emptyRepos } acmeOpts).2 }
        acmeOpts).2 =
      [("flux/flux.yaml", .install "v0.41.2" ""),
       ("flux/deploy-key-acme-gitops-repository.yaml",
        .sync { interval := 15, url := "ssh://git@github.com/acme/gitops-repository",
                name := "deploy-key-acme-gitops-repository",
                secret := "deploy-key-acme-gitops-repository", nspace := "flux-system",
                branch := "main", manifestFile := "deploy-key-acme-gitops-repository.yaml",
                generateDependencies := true, dependenciesPath := "", targetPath := "" }),
       ("dependencies/.sourceignore", .sourceignore),
       ("flux/deploy-key-acme-gitops-repository.yaml",
        .deployKey "deploy-key-acme-gitops-repository" "github.com")] := by
  decide

def nestedOpts : ManifestOpts :=
  { defaultManifestOpts with
    gitopsRepoPath := "/srv/gitops"
    gitopsRepoUrl := "git@gitlab.com:acme/platform/gitops.git" }

/-- For a path of three segments `ParseRepoURL` reads the group `acme` as the
owner and the subgroup `platform` as the repository, and the sync manifest points
flux at `acme/platform`. -/
theorem nested_repo_url_names_subgroup :
    parseRepoURL "git@gitlab.com:acme/platform/gitops.git" = some ("gitlab.com", "acme", "platform") ∧
    (runGenerateManifests { repos := emptyRepos } nestedOpts).2[1]? =
      some ("flux/gitops-repo-acme-platform.yaml",
        .sync { interval := 15, url := "ssh://git@gitlab.com/acme/platform", name := "acme-platform",
                secret := "deploy-key-acme-platform", nspace := "flux-system", branch := "main",
                manifestFile := "gitops-repo-acme-platform.yaml", generateDependencies := true,
                dependenciesPath := "", targetPath := "" }) := by
  decide

end Gitops

end Gimlet
