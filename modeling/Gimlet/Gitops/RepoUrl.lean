import Mathlib.Data.List.Infix
import Mathlib.Data.List.Basic

/-!
# Repository URLs

`ParseRepoURL` of `pkg/gitops/bootstrap.go`, and the functions of Go's
`strings` package the bootstrap calls, on the string's characters. Their
separators and affixes are ASCII, which UTF-8 never places inside a multi-byte
character, so working on characters agrees with Go working on bytes; `ToLower`
maps the ASCII letters.

`ParseRepoURL` reads an scp-style URL `git@host:path`: the host between `@` and
`:`, the owner and the repository as the first two segments of the path. For a
path of two segments that gives the path back; a longer path names another
repository.
-/

namespace Gimlet

namespace Strings

def split (s : String) (sep : Char) : List String := (s.toList.splitOn sep).map String.mk

def contains (s substr : String) : Bool := decide (substr.toList <:+: s.toList)

def trimSuffix (s suffix : String) : String :=
  if suffix.toList <:+ s.toList then ⟨s.toList.take (s.length - suffix.length)⟩ else s

def trimPrefix (s pfx : String) : String :=
  if pfx.toList <+: s.toList then ⟨s.toList.drop pfx.length⟩ else s

/-- `strings.ToLower` on the ASCII letters; Go lowers every Unicode letter
(`İ` to `i`), which this leaves as it is. -/
def toLower (s : String) : String := ⟨s.toList.map Char.toLower⟩

/-- A string of ASCII characters only. On it `toLower` is Go's `strings.ToLower`,
and Go's byte lengths and byte slices count characters. -/
def IsAscii (s : String) : Prop := ∀ c ∈ s.toList, c.toNat < 128

instance : DecidablePred IsAscii := fun s => inferInstanceAs (Decidable (∀ c ∈ s.toList, c.toNat < 128))

@[simp] theorem toList_append (s t : String) : (s ++ t).toList = s.toList ++ t.toList :=
  String.data_append s t

theorem split_cons {s : String} {sep : Char} {a b : List Char} (h : s.toList = a ++ sep :: b)
    (ha : sep ∉ a) : split s sep = ⟨a⟩ :: split ⟨b⟩ sep := by
  have ha' : ∀ c ∈ a, ¬(c == sep) = true := fun c hc e => ha (eq_of_beq e ▸ hc)
  rw [split, h, List.splitOn, List.splitOnP_first _ _ ha' sep (beq_self_eq_true sep)]
  rfl

theorem split_of_not_mem {s : String} {sep : Char} (h : sep ∉ s.toList) : split s sep = [s] := by
  have h' : ∀ c ∈ s.toList, ¬(c == sep) = true := fun c hc e => h (eq_of_beq e ▸ hc)
  rw [split, List.splitOn, List.splitOnP_eq_single _ _ h']
  rfl

theorem trimSuffix_append (s suffix : String) : trimSuffix (s ++ suffix) suffix = s := by
  have hl : (s ++ suffix).length - suffix.length = s.toList.length := by
    rw [String.length_append, Nat.add_sub_cancel]; rfl
  rw [trimSuffix, toList_append, if_pos (List.suffix_append _ _), hl, List.take_left]; rfl

theorem trimSuffix_of_not_suffix {s suffix : String} (h : ¬suffix.toList <:+ s.toList) :
    trimSuffix s suffix = s := if_neg h

end Strings

namespace Gitops

/-- `ParseRepoURL`; `none` is the index-out-of-range panic of a URL with no `:`,
or no `@` before it. -/
def parseRepoURL (url : String) : Option (String × String × String) := do
  let host ← (Strings.split url ':')[0]?
  let host ← (Strings.split host '@')[1]?
  let owner ← (Strings.split url ':')[1]?
  let owner ← (Strings.split owner '/')[0]?
  let repo ← (Strings.split url ':')[1]?
  let repo ← (Strings.split repo '/')[1]?
  let repo := Strings.trimSuffix repo ".git"
  pure (host, owner, repo)

section
variable {h p : String}

theorem toList_scp (h p : String) :
    ("git@" ++ h ++ ":" ++ p).toList = ("git@".toList ++ h.toList) ++ ':' :: p.toList := by
  simp [String.toList]

theorem parseRepoURL_scp (hh : ':' ∉ h.toList ∧ '@' ∉ h.toList) (hp : ':' ∉ p.toList) :
    parseRepoURL ("git@" ++ h ++ ":" ++ p) =
      (do let owner ← (Strings.split p '/')[0]?
          let repo ← (Strings.split p '/')[1]?
          pure (h, owner, Strings.trimSuffix repo ".git")) := by
  have hs : Strings.split ("git@" ++ h ++ ":" ++ p) ':' = ⟨"git@".toList ++ h.toList⟩ :: [p] := by
    rw [Strings.split_cons (toList_scp h p) (by simpa using hh.1)]
    exact congrArg _ (Strings.split_of_not_mem hp)
  have hat : Strings.split ⟨"git@".toList ++ h.toList⟩ '@' = ["git", h] := by
    rw [Strings.split_cons (show (⟨"git@".toList ++ h.toList⟩ : String).toList =
      "git".toList ++ '@' :: h.toList from rfl) (by decide)]
    exact congrArg _ (Strings.split_of_not_mem hh.2)
  simp only [parseRepoURL, hs, hat, List.getElem?_cons_zero, List.getElem?_cons_succ,
    Option.bind_eq_bind, Option.some_bind]

/-- A two-segment path `owner/repo`, with or without `.git`, is read back. -/
theorem parseRepoURL_owner_repo {o r sfx : String} (hh : ':' ∉ h.toList ∧ '@' ∉ h.toList)
    (ho : ':' ∉ o.toList ∧ '/' ∉ o.toList) (hr : ':' ∉ r.toList ∧ '/' ∉ r.toList)
    (hgit : ¬".git".toList <:+ r.toList) (hsfx : sfx = "" ∨ sfx = ".git") :
    parseRepoURL ("git@" ++ h ++ ":" ++ (o ++ "/" ++ r ++ sfx)) = some (h, o, r) := by
  have hs : ':' ∉ sfx.toList ∧ '/' ∉ sfx.toList := by rcases hsfx with rfl | rfl <;> decide
  have hsplit : Strings.split (o ++ "/" ++ r ++ sfx) '/' = [o, r ++ sfx] := by
    rw [Strings.split_cons (show (o ++ "/" ++ r ++ sfx).toList = o.toList ++ '/' :: (r ++ sfx).toList
      by simp [String.toList]) ho.2]
    exact congrArg _ (Strings.split_of_not_mem
      (by rw [Strings.toList_append]; exact List.not_mem_append hr.2 hs.2))
  have htrim : Strings.trimSuffix (r ++ sfx) ".git" = r := by
    rcases hsfx with rfl | rfl
    · exact (String.append_empty r).symm ▸ Strings.trimSuffix_of_not_suffix hgit
    · exact Strings.trimSuffix_append r ".git"
  rw [parseRepoURL_scp hh (by simp [String.toList] at *; tauto)]
  simp [hsplit, htrim]

theorem parseRepoURL_github :
    (':' ∉ "github.com".toList ∧ '@' ∉ "github.com".toList) ∧ (':' ∉ "acme".toList ∧ '/' ∉ "acme".toList) ∧
    (':' ∉ "api".toList ∧ '/' ∉ "api".toList) ∧ ¬".git".toList <:+ "api".toList ∧
    (".git" = "" ∨ ".git" = ".git") ∧
    parseRepoURL ("git@" ++ "github.com" ++ ":" ++ ("acme" ++ "/" ++ "api" ++ ".git")) =
      some ("github.com", "acme", "api") :=
  have hh : ':' ∉ "github.com".toList ∧ '@' ∉ "github.com".toList := by decide
  have ho : ':' ∉ "acme".toList ∧ '/' ∉ "acme".toList := by decide
  have hr : ':' ∉ "api".toList ∧ '/' ∉ "api".toList := by decide
  have hgit : ¬".git".toList <:+ "api".toList := by decide
  ⟨hh, ho, hr, hgit, .inr rfl, parseRepoURL_owner_repo hh ho hr hgit (.inr rfl)⟩

/-- A path of three or more segments gives its first two as owner and repository. -/
theorem parseRepoURL_nested {s₁ s₂ rest : String} (hh : ':' ∉ h.toList ∧ '@' ∉ h.toList)
    (h₁ : ':' ∉ s₁.toList ∧ '/' ∉ s₁.toList) (h₂ : ':' ∉ s₂.toList ∧ '/' ∉ s₂.toList)
    (hrest : ':' ∉ rest.toList) :
    parseRepoURL ("git@" ++ h ++ ":" ++ (s₁ ++ "/" ++ s₂ ++ "/" ++ rest)) =
      some (h, s₁, Strings.trimSuffix s₂ ".git") := by
  have hsplit : Strings.split (s₁ ++ "/" ++ s₂ ++ "/" ++ rest) '/' =
      s₁ :: s₂ :: Strings.split rest '/' := by
    rw [Strings.split_cons (show (s₁ ++ "/" ++ s₂ ++ "/" ++ rest).toList =
      s₁.toList ++ '/' :: (s₂ ++ "/" ++ rest).toList by simp [String.toList, String.data_append]) h₁.2]
    exact congrArg _ (Strings.split_cons (show (s₂ ++ "/" ++ rest).toList = s₂.toList ++ '/' :: rest.toList
      by simp [String.toList, String.data_append]) h₂.2)
  rw [parseRepoURL_scp hh (by simp [String.toList, String.data_append] at *; tauto)]
  simp [hsplit]

theorem parseRepoURL_gitlab_subgroup :
    (':' ∉ "gitlab.com".toList ∧ '@' ∉ "gitlab.com".toList) ∧ (':' ∉ "acme".toList ∧ '/' ∉ "acme".toList) ∧
    (':' ∉ "platform".toList ∧ '/' ∉ "platform".toList) ∧ ':' ∉ "gitops.git".toList ∧
    parseRepoURL ("git@" ++ "gitlab.com" ++ ":" ++ ("acme" ++ "/" ++ "platform" ++ "/" ++ "gitops.git")) =
      some ("gitlab.com", "acme", Strings.trimSuffix "platform" ".git") :=
  have hh : ':' ∉ "gitlab.com".toList ∧ '@' ∉ "gitlab.com".toList := by decide
  have h₁ : ':' ∉ "acme".toList ∧ '/' ∉ "acme".toList := by decide
  have h₂ : ':' ∉ "platform".toList ∧ '/' ∉ "platform".toList := by decide
  have hrest : ':' ∉ "gitops.git".toList := by decide
  ⟨hh, h₁, h₂, hrest, parseRepoURL_nested hh h₁ h₂ hrest⟩
end

end Gitops

end Gimlet
