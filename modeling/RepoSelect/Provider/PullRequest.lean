import RepoSelect.Document
import RepoSelect.Json.Basic

/-!
# Pull requests

What is asked of a provider to open a pull request, and what it reports of one.
-/

namespace RepoSelect

open Document

structure PullRequestDraft where
  repository : String
  title : String
  description : String := ""
  sourceBranch : String
  targetBranch : String
deriving Repr, DecidableEq

inductive PullRequestState where
  | opened
  | merged
  | declined
deriving Repr, DecidableEq

structure PullRequest where
  id : Nat
  repository : String
  title : String
  sourceBranch : String
  targetBranch : String
  state : PullRequestState
  url : Option String := none
deriving Repr, DecidableEq

namespace PullRequestDraft

def slots (δ : Type) [Document δ] : List (Slot δ PullRequestDraft) :=
  [ { name := "repository", required := true
      put := fun d r => do .ok { r with repository := ← readText d } },
    { name := "title", required := true
      put := fun d r => do .ok { r with title := ← readText d } },
    { name := "description", put := fun d r => do .ok { r with description := ← readText d } },
    { name := "source_branch", required := true
      put := fun d r => do .ok { r with sourceBranch := ← readText d } },
    { name := "target_branch", required := true
      put := fun d r => do .ok { r with targetBranch := ← readText d } } ]

def ofDocument {δ : Type} [Document δ] : δ → Reading PullRequestDraft :=
  readRecord "PullRequestRequest" false (slots δ) ⟨"", "", "", "", ""⟩

def toJson (r : PullRequestDraft) : Json.Value :=
  .object
    [ ("repository", .string r.repository),
      ("title", .string r.title),
      ("description", .string r.description),
      ("source_branch", .string r.sourceBranch),
      ("target_branch", .string r.targetBranch) ]

end PullRequestDraft

namespace PullRequestState

def name : PullRequestState → String
  | opened => "open"
  | merged => "merged"
  | declined => "declined"

def all : List PullRequestState := [opened, merged, declined]

def ofDocument {δ : Type} [Document δ] (d : δ) : Reading PullRequestState := do
  let known ← readVariant (all.map name) d
  .ok ((all.find? (·.name = known)).getD opened)

end PullRequestState

namespace PullRequest

def slots (δ : Type) [Document δ] : List (Slot δ PullRequest) :=
  [ { name := "id", required := true, put := fun d r => do .ok { r with id := ← readCount d } },
    { name := "repository", required := true
      put := fun d r => do .ok { r with repository := ← readText d } },
    { name := "title", required := true
      put := fun d r => do .ok { r with title := ← readText d } },
    { name := "source_branch", required := true
      put := fun d r => do .ok { r with sourceBranch := ← readText d } },
    { name := "target_branch", required := true
      put := fun d r => do .ok { r with targetBranch := ← readText d } },
    { name := "state", required := true
      put := fun d r => do .ok { r with state := ← PullRequestState.ofDocument d } },
    { name := "url", put := fun d r => do .ok { r with url := ← readOption readText d } } ]

def ofDocument {δ : Type} [Document δ] : δ → Reading PullRequest :=
  readRecord "PullRequest" false (slots δ) ⟨0, "", "", "", "", .opened, none⟩

def toJson (r : PullRequest) : Json.Value :=
  .object
    [ ("id", .ofNat r.id),
      ("repository", .string r.repository),
      ("title", .string r.title),
      ("source_branch", .string r.sourceBranch),
      ("target_branch", .string r.targetBranch),
      ("state", .string r.state.name),
      ("url", (r.url.map .string).getD .null) ]

end PullRequest

end RepoSelect
