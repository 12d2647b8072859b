import Mathlib.Data.List.Basic
import Gimlet.Gitops.RepoUrl

/-!
# The go-scm helper

`pkg/git/genericScm/goScmHelper.go`. `UserRepos` pages through
`Repositories.List`, 100 repositories a page, appending `namespace/name` of each,
and follows the next page number or URL the server gives until both are unset.
A failed request ends the listing with no repositories at all, whatever earlier
pages returned. The loop has no bound of its own: a server that always names a
next page keeps it running.

`DirectoryContents` collects the listed files of a folder into a map from path to
blob id, and `RegisterWebhook` registers nothing for a host that mentions
`localhost`. The server is a parameter: what each request returns.
-/

namespace Gimlet

namespace Scm

structure ListOptions where
  url : String := ""
  page : Int := 0
  size : Nat := 0
  deriving DecidableEq, Repr

structure Repository where
  nspace : String
  name : String
  deriving DecidableEq, Repr

structure Page where
  next : Int
  nextURL : String
  deriving DecidableEq, Repr

abbrev ListRepos := ListOptions → Except String (List Repository × Page)

def Repository.fullName (r : Repository) : String := r.nspace ++ "/" ++ r.name

/-- The `for` loop of `UserRepos` with at most `fuel` requests left; `none` is a
loop still running when the fuel runs out. It returns the repositories and the
error, as Go does. -/
def userReposLoop (list : ListRepos) : Nat → ListOptions → List String →
    Option (List String × Option String)
  | 0, _, _ => none
  | fuel + 1, opts, repos =>
    match list opts with
    | .error err => some ([], some err)
    | .ok (scmRepos, meta) =>
      let repos := repos ++ scmRepos.map Repository.fullName
      let opts := { opts with page := meta.next, url := meta.nextURL }
      if opts.page = 0 ∧ opts.url = "" then some (repos, none)
      else userReposLoop list fuel opts repos

/-- `UserRepos`; a helper without a client lists nothing. -/
def userRepos (client : Option ListRepos) (fuel : Nat) : Option (List String × Option String) :=
  match client with
  | none => some ([], none)
  | some list => userReposLoop list fuel { size := 100 } []

/-! ## Paging -/

/-- The server's answers along the loop's requests from `opts` on: pages linked
by their next page number or URL, ending with a last page or with an error. -/
inductive Answers (list : ListRepos) : ListOptions → List (List Repository) → Option String → Prop
  | last {opts repos meta} : list opts = .ok (repos, meta) → meta.next = 0 → meta.nextURL = "" →
      Answers list opts [repos] none
  | error {opts err} : list opts = .error err → Answers list opts [] (some err)
  | next {opts repos meta pages r} : list opts = .ok (repos, meta) →
      ¬(meta.next = 0 ∧ meta.nextURL = "") →
      Answers list { opts with page := meta.next, url := meta.nextURL } pages r →
      Answers list opts (repos :: pages) r

theorem userReposLoop_answers {list : ListRepos} {opts : ListOptions} {pages : List (List Repository)}
    {r : Option String} (h : Answers list opts pages r) :
    ∀ {fuel : Nat}, pages.length < fuel → ∀ repos : List String,
      userReposLoop list fuel opts repos =
        some (r.elim (repos ++ (pages.map fun p => p.map Repository.fullName).flatten, none)
          fun err => ([], some err)) := by
  induction h with
  | last hl h0 hu =>
    intro fuel hf repos
    obtain ⟨k, rfl⟩ := Nat.exists_eq_add_of_lt hf
    simp [userReposLoop, hl, h0, hu]
  | error he =>
    intro fuel hf repos
    obtain ⟨k, rfl⟩ := Nat.exists_eq_add_of_lt hf
    simp [userReposLoop, he]
  | next hl hn _ ih =>
    intro fuel hf repos
    obtain ⟨k, rfl⟩ := Nat.exists_eq_add_of_lt hf
    simp only [userReposLoop, hl]
    rw [if_neg hn, ih (by simp; omega)]
    cases r <;> simp

/-- For every chain of answers to the requests `UserRepos` makes, from the first
page of 100 on, and with a request more than there are pages, `UserRepos`
returns the `namespace/name` of every listed repository in page order, or no
repository and the error when a request fails, however many pages it read
before. -/
theorem userRepos_answers {list : ListRepos} {pages : List (List Repository)} {r : Option String}
    (h : Answers list { size := 100 } pages r) {fuel : Nat} (hf : pages.length < fuel) :
    userRepos (some list) fuel =
      some (r.elim ((pages.map fun p => p.map Repository.fullName).flatten, none)
        fun err => ([], some err)) := by
  rw [userRepos, userReposLoop_answers h hf, List.nil_append]

def twoPages : ListRepos := fun opts =>
  if opts.page = 0 then .ok ([⟨"acme", "api"⟩], ⟨2, ""⟩) else .ok ([⟨"acme", "web"⟩], ⟨0, ""⟩)

theorem twoPages_answers : Answers twoPages { size := 100 } [[⟨"acme", "api"⟩], [⟨"acme", "web"⟩]] none :=
  .next rfl (by decide) (.last rfl rfl rfl)

theorem userRepos_twoPages :
    Answers twoPages { size := 100 } [[⟨"acme", "api"⟩], [⟨"acme", "web"⟩]] none ∧ 2 < 3 ∧
    userRepos (some twoPages) 3 = some (["acme/api", "acme/web"], none) :=
  ⟨twoPages_answers, by decide, userRepos_answers twoPages_answers (by decide)⟩

/-- A server that names a next page in every answer keeps the loop running
whatever the number of requests: `UserRepos` has no bound of its own. -/
theorem userReposLoop_unbounded {list : ListRepos}
    (h : ∀ opts, ∃ repos meta, list opts = .ok (repos, meta) ∧ ¬(meta.next = 0 ∧ meta.nextURL = "")) :
    ∀ (fuel : Nat) (opts : ListOptions) (repos : List String), userReposLoop list fuel opts repos = none
  | 0, _, _ => rfl
  | fuel + 1, opts, repos => by
    obtain ⟨scmRepos, meta, hl, hn⟩ := h opts
    simp only [userReposLoop, hl]
    rw [if_neg hn]
    exact userReposLoop_unbounded h fuel _ _

def endlessPages : ListRepos := fun _ => .ok ([], ⟨2, ""⟩)

theorem userReposLoop_endless :
    (∀ opts, ∃ repos meta, endlessPages opts = .ok (repos, meta) ∧ ¬(meta.next = 0 ∧ meta.nextURL = "")) ∧
    userReposLoop endlessPages 1000 { size := 100 } [] = none :=
  have h : ∀ opts, ∃ repos meta, endlessPages opts = .ok (repos, meta) ∧
      ¬(meta.next = 0 ∧ meta.nextURL = "") := fun _ => ⟨[], ⟨2, ""⟩, rfl, by decide⟩
  ⟨h, userReposLoop_unbounded h 1000 _ _⟩

/-! ## Folder contents and webhooks -/

structure ContentInfo where
  path : String
  blobID : String
  deriving DecidableEq, Repr

/-- `DirectoryContents`, for what `Contents.List` returned (one request of 50
entries on `HEAD`): the map from path to blob id, and the request's error. -/
def directoryContents (listed : List ContentInfo × Option String) :
    (String → Option String) × Option String :=
  (listed.1.foldl (fun (files : String → Option String) file =>
      Function.update files file.path (some file.blobID)) fun _ => none,
    listed.2)

theorem directoryContents_get (listed : List ContentInfo × Option String) (p : String) :
    (directoryContents listed).1 p =
      ((listed.1.filter fun f => f.path = p).getLast?.map ContentInfo.blobID) := by
  suffices h : ∀ (files : String → Option String) (l : List ContentInfo),
      (l.foldl (fun (files : String → Option String) file =>
        Function.update files file.path (some file.blobID)) files) p =
        (((l.filter fun f => f.path = p).getLast?.map ContentInfo.blobID).elim (files p) some) by
    dsimp only [directoryContents]; rw [h]; cases (listed.1.filter fun f => f.path = p).getLast? <;> rfl
  intro files l
  induction l generalizing files with
  | nil => rfl
  | cons f l ih =>
    rw [List.foldl_cons, ih]
    by_cases hf : f.path = p
    · subst hf
      rw [List.filter_cons_of_pos (by simp), List.getLast?_cons]
      cases (l.filter fun g => g.path = f.path).getLast? <;> simp
    · rw [List.filter_cons_of_neg (by simpa using hf), Function.update_noteq (Ne.symm hf)]

structure HookInput where
  name : String
  target : String
  secret : String
  push : Bool
  status : Bool
  branch : Bool
  deriving DecidableEq, Repr

/-- `RegisterWebhook`: the repository and hook it hands to `replaceHook`, or
`none` when it skips a host that mentions `localhost`. -/
def registerWebhook (host _token webhookSecret owner repo : String) : Option (String × HookInput) :=
  if Strings.contains host "localhost" then none
  else some (owner ++ "/" ++ repo, ⟨"Gimlet", host ++ "/hook", webhookSecret, true, true, true⟩)

end Scm

end Gimlet
