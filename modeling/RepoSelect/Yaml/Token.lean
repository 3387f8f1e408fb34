import RepoSelect.Yaml.Cursor

/-!
# YAML tokens

What a YAML text consists of once indentation has been turned into brackets: the start and
end of block collections have tokens of their own, and so has the key of a mapping even where
nothing marks it.
-/

namespace RepoSelect.Yaml

inductive ScalarStyle where
  | plain
  | singleQuoted
  | doubleQuoted
  | literal
  | folded
deriving Repr, DecidableEq

inductive Token where
  | version (major minor : Nat)
  | tagHandle (handle stem : String)
  | documentStart
  | documentEnd
  | blockSequenceStart
  | blockMappingStart
  | blockEnd
  | flowSequenceStart
  | flowSequenceEnd
  | flowMappingStart
  | flowMappingEnd
  | blockEntry
  | flowEntry
  | key
  | value
  | alias (name : String)
  | anchor (name : String)
  | tag (handle suffix : String)
  | scalar (text : String) (style : ScalarStyle)
deriving Repr, DecidableEq

end RepoSelect.Yaml
