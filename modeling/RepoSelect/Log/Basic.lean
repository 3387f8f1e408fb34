/-!
# Log messages

What a part of the program has to say about its work, and how much it matters.
-/

namespace RepoSelect.Log

inductive Level where
  | error
  | warn
  | info
  | debug
  | trace
deriving Repr, DecidableEq

/-- The parts of the program that log. -/
inductive Topic where
  | catalog
  | cache
  | filter
  | commands
  | inventory
deriving Repr, DecidableEq

def Topic.name : Topic → String
  | .catalog => "repo_fleet::catalog"
  | .cache => "repo_fleet::cache"
  | .filter => "repo_fleet::filter"
  | .commands => "repo_fleet::commands"
  | .inventory => "repo_fleet::provider::inventory"

structure Message where
  level : Level
  topic : Topic
  text : String
deriving Repr, DecidableEq

end RepoSelect.Log
