import Mathlib.Data.List.Infix

/-!
# Log masking and re-encryption at dashboard start

`cmd/dashboard/init.go`. `hideAccessToken` masks the value of every
`access_token=` parameter of a log message through `regexp.ReplaceAllString`
with the pattern `access_token=([^& ]+)`, and `customFormatter.Format` logs the
masked message. Two messages that differ only in the value of one token are
masked alike, wherever the token sits and whatever else the message holds.

`reencrypt` writes every user back through `UpdateUser`, so that the secrets are
stored under the new key, and then exits. It drops what `UpdateUser` returns: the
loop tests `err`, the error of `EverytingFromUsers`, which is nil there.
-/

namespace Gimlet

namespace Dashboard

/-! ## Masking access tokens -/

def tokenKey : List Char := "access_token=".toList

theorem tokenKey_length : tokenKey.length = 13 := rfl

def IsValueChar (c : Char) : Bool := c != '&' && c != ' '

def matchAt (s : List Char) : Bool :=
  decide (tokenKey <+: s) && (s.drop tokenKey.length).head?.any IsValueChar

/-- `ReplaceAllString` of the pattern by `access_token=***`, on the message's
characters. From the left, the scan tries the leftmost-first match at each
position, the key and the longest run of value characters after it; it replaces
a match and goes on after it, and otherwise copies one character. -/
def replaceTokens : List Char → List Char
  | [] => []
  | c :: cs =>
    if matchAt (c :: cs) then
      "access_token=***".toList ++
        replaceTokens (((c :: cs).drop tokenKey.length).dropWhile IsValueChar)
    else c :: replaceTokens cs
termination_by s => s.length
decreasing_by
  all_goals simp_wf
  · refine lt_of_le_of_lt (List.dropWhile_suffix IsValueChar).length_le ?_
    simp only [List.length_drop, List.length_cons, tokenKey_length]; omega

/-- `hideAccessToken`. Its pattern is a constant that compiles, so the error
branch after `regexp.Compile` is never taken. -/
def hideAccessToken (message : String) : String := ⟨replaceTokens message.toList⟩

/-- A logrus entry: its message, and the rest that `TextFormatter` prints
(time, level, fields, caller). -/
structure LogEntry (ι : Type) where
  message : String
  rest : ι

/-- `customFormatter.Format`: the entry with its message masked, formatted by a
`TextFormatter` with full RFC 3339 timestamps, given as `textFormat`, which
returns the formatted text and its error. -/
def customFormatter.format {ι : Type} (textFormat : LogEntry ι → String × Option String)
    (entry : LogEntry ι) : String × Option String :=
  textFormat { entry with message := hideAccessToken entry.message }

/-! ### The scan, step by step -/

theorem replaceTokens_of_matchAt {s : List Char} (h : matchAt s = true) :
    replaceTokens s = "access_token=***".toList ++
      replaceTokens ((s.drop tokenKey.length).dropWhile IsValueChar) := by
  cases s with
  | nil => exact absurd h (by decide)
  | cons c cs => rw [replaceTokens, if_pos h]

theorem replaceTokens_of_not_matchAt {c : Char} {cs : List Char} (h : ¬matchAt (c :: cs) = true) :
    replaceTokens (c :: cs) = c :: replaceTokens cs := by
  rw [replaceTokens, if_neg h]

theorem matchAt_take (s : List Char) : matchAt s = matchAt (s.take 14) := by
  have hd : ((s.take 14).drop tokenKey.length).head? = (s.drop tokenKey.length).head? := by
    rw [List.drop_take, tokenKey_length, List.head?_take]; rfl
  simp [matchAt, hd, List.prefix_take_iff, tokenKey_length]

theorem dropWhile_value_run {q : List Char} (hq : ∀ c ∈ q.head?, IsValueChar c = false) :
    ∀ {w : List Char}, (∀ c ∈ w, IsValueChar c = true) → (w ++ q).dropWhile IsValueChar = q
  | [], _ => by
    cases q with
    | nil => rfl
    | cons a r => exact List.dropWhile_cons_of_neg (by simp [hq a rfl])
  | a :: w, hw => by
    rw [List.cons_append, List.dropWhile_cons_of_pos (hw a (List.mem_cons_self a w))]
    exact dropWhile_value_run hq fun c hc => hw c (List.mem_cons_of_mem a hc)

/-! ### A token's value does not reach the masked message -/

section
variable {v v₁ v₂ q : List Char}

def IsTokenValue (v : List Char) : Prop := v ≠ [] ∧ ∀ c ∈ v, IsValueChar c = true

def EndsToken (q : List Char) : Prop := ∀ c ∈ q.head?, IsValueChar c = false

theorem tokenKey_value_chars : ∀ c ∈ tokenKey, IsValueChar c = true := by decide

theorem matchAt_token_start (hv : IsTokenValue v) : matchAt (tokenKey ++ v ++ q) = true := by
  obtain ⟨a, v', rfl⟩ := List.exists_cons_of_ne_nil hv.1
  rw [List.append_assoc, matchAt, decide_eq_true (List.prefix_append _ _), List.drop_left]
  exact hv.2 a (List.mem_cons_self a v')

theorem matchAt_token (hv₁ : IsTokenValue v₁) (hv₂ : IsTokenValue v₂) (p : List Char) :
    matchAt (p ++ (tokenKey ++ v₁ ++ q)) = matchAt (p ++ (tokenKey ++ v₂ ++ q)) := by
  cases p with
  | nil => rw [List.nil_append, List.nil_append, matchAt_token_start hv₁, matchAt_token_start hv₂]
  | cons c cs =>
    have h14 : ∀ v, ((c :: cs) ++ (tokenKey ++ v ++ q)).take 14 = ((c :: cs) ++ tokenKey).take 14 := by
      intro v
      rw [List.append_assoc tokenKey, ← List.append_assoc, List.take_append_of_le_length]
      simp [tokenKey_length]
    rw [matchAt_take, h14, ← h14 v₂, ← matchAt_take]

theorem rest_after_match (hv : IsTokenValue v) (hq : EndsToken q) (p : List Char) :
    ((p ++ (tokenKey ++ v ++ q)).drop tokenKey.length).dropWhile IsValueChar =
      if (p.drop tokenKey.length).dropWhile IsValueChar = [] then q
      else (p.drop tokenKey.length).dropWhile IsValueChar ++ (tokenKey ++ v ++ q) := by
  rw [List.drop_append_eq_append_drop, List.dropWhile_append]
  simp only [List.isEmpty_iff]
  split_ifs with h
  · have hk : tokenKey.length - p.length ≤ (tokenKey ++ v).length := by
      simp only [List.length_append]; omega
    rw [List.drop_append_of_le_length hk]
    exact dropWhile_value_run hq fun c hc => by
      rcases List.mem_append.mp (List.mem_of_mem_drop hc) with hc | hc
      exacts [tokenKey_value_chars c hc, hv.2 c hc]
  · have hp : tokenKey.length < p.length := by
      by_contra hle
      rw [List.drop_eq_nil_of_le (by omega)] at h
      exact h rfl
    rw [Nat.sub_eq_zero_of_le hp.le, List.drop_zero]

theorem length_rest_lt {p : List Char} (h : ¬(p.drop tokenKey.length).dropWhile IsValueChar = []) :
    ((p.drop tokenKey.length).dropWhile IsValueChar).length < p.length := by
  have hle : ((p.drop tokenKey.length).dropWhile IsValueChar).length ≤ p.length - 13 :=
    List.length_drop _ p ▸ tokenKey_length ▸ (List.dropWhile_suffix IsValueChar).length_le
  have hne : 0 < ((p.drop tokenKey.length).dropWhile IsValueChar).length := List.length_pos.mpr h
  omega

/-- Two messages that differ only in one token's value are masked alike: the scan
meets the same matches before the token, and a match that reaches the token, or
starts at it, runs to the end of the value. -/
theorem replaceTokens_value_independent (hv₁ : IsTokenValue v₁) (hv₂ : IsTokenValue v₂)
    (hq : EndsToken q) (p : List Char) :
    replaceTokens (p ++ (tokenKey ++ v₁ ++ q)) = replaceTokens (p ++ (tokenKey ++ v₂ ++ q)) := by
  by_cases hm : matchAt (p ++ (tokenKey ++ v₁ ++ q))
  · have hm₂ := (matchAt_token hv₁ hv₂ p) ▸ hm
    rw [replaceTokens_of_matchAt hm, replaceTokens_of_matchAt hm₂, rest_after_match hv₁ hq,
      rest_after_match hv₂ hq]
    split_ifs with hr
    · rfl
    · rw [replaceTokens_value_independent hv₁ hv₂ hq]
  · have hm₂ := (matchAt_token hv₁ hv₂ p) ▸ hm
    cases p with
    | nil => exact absurd (matchAt_token_start hv₁) hm
    | cons c cs =>
      simp only [List.cons_append] at hm hm₂ ⊢
      rw [replaceTokens_of_not_matchAt hm,
        replaceTokens_of_not_matchAt hm₂, replaceTokens_value_independent hv₁ hv₂ hq cs]
termination_by p.length
decreasing_by
  all_goals simp_wf
  exact length_rest_lt hr

end

/-! ### On the message strings -/

section
variable {v q : String}

theorem hideAccessToken_token_message (p v q : String) :
    hideAccessToken (p ++ "access_token=" ++ v ++ q) =
      ⟨replaceTokens (p.toList ++ (tokenKey ++ v.toList ++ q.toList))⟩ := by
  simp [hideAccessToken, tokenKey, String.toList, String.data_append]

theorem isTokenValue_of_string (hv : v ≠ "" ∧ '&' ∉ v.toList ∧ ' ' ∉ v.toList) :
    IsTokenValue v.toList :=
  ⟨fun h => hv.1 (String.ext h), fun c hc => by
    simp only [IsValueChar, bne_iff_ne, Bool.and_eq_true, ne_eq]
    exact ⟨fun e => hv.2.1 (e ▸ hc), fun e => hv.2.2 (e ▸ hc)⟩⟩

theorem endsToken_of_string (hq : ∀ c ∈ q.toList.head?, c = '&' ∨ c = ' ') : EndsToken q.toList :=
  fun c hc => by rcases hq c hc with rfl | rfl <;> rfl

end

theorem hideAccessToken_value_independent (p v₁ v₂ q : String)
    (hv₁ : v₁ ≠ "" ∧ '&' ∉ v₁.toList ∧ ' ' ∉ v₁.toList)
    (hv₂ : v₂ ≠ "" ∧ '&' ∉ v₂.toList ∧ ' ' ∉ v₂.toList)
    (hq : ∀ c ∈ q.toList.head?, c = '&' ∨ c = ' ') :
    hideAccessToken (p ++ "access_token=" ++ v₁ ++ q) =
      hideAccessToken (p ++ "access_token=" ++ v₂ ++ q) := by
  rw [hideAccessToken_token_message, hideAccessToken_token_message,
    replaceTokens_value_independent (isTokenValue_of_string hv₁) (isTokenValue_of_string hv₂)
      (endsToken_of_string hq)]

theorem hideAccessToken_api_url :
    ("gho_abc" ≠ "" ∧ '&' ∉ "gho_abc".toList ∧ ' ' ∉ "gho_abc".toList) ∧
    ("gho_xyz" ≠ "" ∧ '&' ∉ "gho_xyz".toList ∧ ' ' ∉ "gho_xyz".toList) ∧
    (∀ c ∈ "&page=1".toList.head?, c = '&' ∨ c = ' ') ∧
    hideAccessToken ("GET https://api.github.com/user?" ++ "access_token=" ++ "gho_abc" ++ "&page=1") =
      hideAccessToken ("GET https://api.github.com/user?" ++ "access_token=" ++ "gho_xyz" ++ "&page=1") :=
  ⟨by decide, by decide, by decide,
    hideAccessToken_value_independent _ _ _ _ (by decide) (by decide) (by decide)⟩

/-- What `customFormatter.Format` logs for an entry whose message carries a token
does not depend on the token's value. -/
theorem customFormatter.format_value_independent {ι : Type}
    (textFormat : LogEntry ι → String × Option String) (p v₁ v₂ q : String) (rest : ι)
    (hv₁ : v₁ ≠ "" ∧ '&' ∉ v₁.toList ∧ ' ' ∉ v₁.toList)
    (hv₂ : v₂ ≠ "" ∧ '&' ∉ v₂.toList ∧ ' ' ∉ v₂.toList)
    (hq : ∀ c ∈ q.toList.head?, c = '&' ∨ c = ' ') :
    customFormatter.format textFormat ⟨p ++ "access_token=" ++ v₁ ++ q, rest⟩ =
      customFormatter.format textFormat ⟨p ++ "access_token=" ++ v₂ ++ q, rest⟩ := by
  simp only [customFormatter.format, hideAccessToken_token_message,
    replaceTokens_value_independent (isTokenValue_of_string hv₁) (isTokenValue_of_string hv₂)
      (endsToken_of_string hq)]

/-! ### Masking twice -/

@[simp] theorem replaceTokens_nil : replaceTokens [] = [] := by rw [replaceTokens]

theorem replacement_eq : "access_token=***".toList = tokenKey ++ "***".toList := rfl

theorem stars_value_chars : ∀ c ∈ "***".toList, IsValueChar c = true := by decide

theorem length_rest_cons_lt (c : Char) (cs : List Char) :
    (((c :: cs).drop tokenKey.length).dropWhile IsValueChar).length < cs.length + 1 :=
  lt_of_le_of_lt (List.dropWhile_suffix IsValueChar).length_le (by simp [tokenKey_length]; omega)

theorem take_replaceTokens : ∀ (s : List Char) {n : Nat}, n ≤ 13 → (replaceTokens s).take n = s.take n
  | [], _, _ => by rw [replaceTokens_nil]
  | c :: cs, n, hn => by
    by_cases hm : matchAt (c :: cs)
    · have hk : tokenKey <+: c :: cs := by simp only [matchAt, Bool.and_eq_true, decide_eq_true_eq] at hm; exact hm.1
      obtain ⟨r, hr⟩ := hk
      have hn' : n ≤ tokenKey.length := by rw [tokenKey_length]; exact hn
      rw [replaceTokens_of_matchAt hm, ← hr, replacement_eq, List.append_assoc,
        List.take_append_of_le_length hn', List.take_append_of_le_length hn']
    · rw [replaceTokens_of_not_matchAt hm]
      cases n with
      | zero => rfl
      | succ k => simp only [List.take_succ_cons, take_replaceTokens cs (by omega : k ≤ 13)]

/-- Masking a message that is already masked changes nothing: every token the
scan leaves in its output reads `***`, and the characters it copies start no
new match. -/
theorem replaceTokens_replaceTokens (s : List Char) : replaceTokens (replaceTokens s) = replaceTokens s := by
  match s with
  | [] => simp only [replaceTokens_nil]
  | c :: cs =>
    by_cases hm : matchAt (c :: cs)
    · set rest := ((c :: cs).drop tokenKey.length).dropWhile IsValueChar with hrest
      have hend : EndsToken (replaceTokens rest) := by
        intro a ha
        have h1 := congrArg List.head? (take_replaceTokens rest (show 1 ≤ 13 by omega))
        simp only [List.head?_take, Nat.one_ne_zero, if_false] at h1
        have := List.head?_dropWhile_not IsValueChar ((c :: cs).drop tokenKey.length)
        rw [← hrest, ← h1, Option.mem_def.mp ha] at this
        exact this
      have hR : matchAt ("access_token=***".toList ++ replaceTokens rest) = true := by
        simp [matchAt, tokenKey, IsValueChar]
      rw [replaceTokens_of_matchAt hm, ← hrest, replaceTokens_of_matchAt hR]
      congr 1
      have hd : (("access_token=***".toList ++ replaceTokens rest).drop tokenKey.length).dropWhile
          IsValueChar = replaceTokens rest := by
        rw [replacement_eq, List.append_assoc, List.drop_left]
        exact dropWhile_value_run hend stars_value_chars
      rw [hd, replaceTokens_replaceTokens rest]
    · have hm' : ¬matchAt (c :: replaceTokens cs) = true := by
        rwa [matchAt_take, List.take_succ_cons, take_replaceTokens cs (by omega), ← List.take_succ_cons,
          ← matchAt_take]
      rw [replaceTokens_of_not_matchAt hm, replaceTokens_of_not_matchAt hm', replaceTokens_replaceTokens cs]
termination_by s.length
decreasing_by
  all_goals simp_wf
  exact length_rest_cons_lt c cs

/-- Masking is idempotent: a message masked a second time, as when
`customFormatter.Format` runs again on the entry whose message it overwrote, comes
out the same. -/
theorem hideAccessToken_idempotent (message : String) :
    hideAccessToken (hideAccessToken message) = hideAccessToken message :=
  congrArg String.mk (replaceTokens_replaceTokens message.toList)

/-! ## Re-encryption -/

/-- How `reencrypt` ends: it returns an error or nil, or `os.Exit` ends the process. -/
inductive Ending
  | returned (err : Option String)
  | exited (code : Nat)
  deriving DecidableEq, Repr

def reencryptDoneMessage : String :=
  "db field re-encryption is done, please replace the value of DATABASE_ENCRYPTION_KEY with the value of DATABASE_ENCRYPTION_KEY_NEW, and delete DATABASE_ENCRYPTION_KEY_NEW environment variable"

structure ReencryptRun (User : Type) where
  updates : List (User × Option String)
  printed : List String
  ending : Ending
  deriving DecidableEq, Repr

/-- The loop of `reencrypt` from the `i`-th user on. It calls `UpdateUser`, whose
`i`-th call returns `updateUser i u`, drops the result, and then tests `err`, the
variable that `EverytingFromUsers` set. -/
def updateUsers {User : Type} (updateUser : Nat → User → Option String) (err : Option String) :
    Nat → List User → List (User × Option String) × Option String
  | _, [] => ([], none)
  | i, u :: us =>
    match err with
    | some e => ([(u, updateUser i u)], some e)
    | none =>
      let (calls, result) := updateUsers updateUser err (i + 1) us
      ((u, updateUser i u) :: calls, result)

/-- `reencrypt`, for the result of `store.EverytingFromUsers` and the results of the
`store.UpdateUser` calls. -/
def reencrypt {User : Type} (everytingFromUsers : Except String (List User))
    (updateUser : Nat → User → Option String) (encryptionKeyNew : String) : ReencryptRun User :=
  if encryptionKeyNew = "" then ⟨[], [], .returned none⟩
  else
    match everytingFromUsers with
    | .error err => ⟨[], [], .returned (some err)⟩
    | .ok users =>
      let err : Option String := none
      match updateUsers updateUser err 0 users with
      | (calls, some e) => ⟨calls, [], .returned (some e)⟩
      | (calls, none) => ⟨calls, [reencryptDoneMessage], .exited 0⟩

theorem updateUsers_nil_err {User : Type} (updateUser : Nat → User → Option String) :
    ∀ (i : Nat) (users : List User), updateUsers updateUser none i users =
      ((users.enumFrom i).map fun ju => (ju.2, updateUser ju.1 ju.2), none)
  | _, [] => rfl
  | i, u :: us => by simp only [updateUsers, updateUsers_nil_err updateUser (i + 1) us]; rfl

/-- Once the users are read, every run with a new key prints the completion line
and exits with status 0, whichever `UpdateUser` calls fail. -/
theorem reencrypt_exits {User : Type} (users : List User) (updateUser : Nat → User → Option String)
    {encryptionKeyNew : String} (hkey : encryptionKeyNew ≠ "") :
    reencrypt (.ok users) updateUser encryptionKeyNew =
      ⟨users.enum.map (fun ju => (ju.2, updateUser ju.1 ju.2)), [reencryptDoneMessage], .exited 0⟩ := by
  simp only [reencrypt, if_neg hkey, updateUsers_nil_err]; rfl

theorem reencrypt_done_after_failed_update :
    reencrypt (.ok ["alice", "bob"]) (fun i _ => if i = 0 then some "database is locked" else none)
        "new-key" =
      ⟨[("alice", some "database is locked"), ("bob", none)], [reencryptDoneMessage], .exited 0⟩ :=
  rfl

end Dashboard

end Gimlet
