import RepoSelect.Filter.Basic
import RepoSelect.Log.Basic

/-!
# Remarks on a filter

What is passed over when a filter is read and evaluated: tokens without a name, and labels
that are not known.
-/

namespace RepoSelect.Filter

def namelessRemark : Log.Message := ⟨.debug, .filter, "Ignoring filter token without a name"⟩

def unknownRemark (label : String) : Log.Message :=
  ⟨.debug, .filter, "Unknown label '" ++ label ++ "' selects nothing"⟩

/-- One remark for each token without a name. -/
def readingRemarks (f : Filter) (raw : List String) : List Log.Message :=
  (((f.expand raw).map (Token.read f.markers)).filter (·.name = "")).map fun _ => namelessRemark

def evaluationRemarks (f : Filter) (raw : List String) (ix : LabelIndex) :
    List Log.Message :=
  let unknown := (f.tokens raw).filter fun t => t.isLabel && !ix.contains t.name
  f.readingRemarks raw ++ unknown.map fun t => unknownRemark t.name

end RepoSelect.Filter
