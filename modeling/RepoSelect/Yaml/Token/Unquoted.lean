import RepoSelect.Yaml.Token.Quoted

/-!
# Plain scalars

Text without quotes. It ends at a comment, at a colon with a blank behind it, at the marks of
flow collections inside of them, and where the indentation falls back.
-/

namespace RepoSelect.Yaml.Unquoted

open Quoted (Gap)

def isFlowMark (c : Char) : Bool :=
  c = ',' || c = '[' || c = ']' || c = '\x7b' || c = '\x7d'

/-- The characters up to a blank, a break or the end of the scalar. -/
def word (flow : Bool) : List Char → Except String (List Char)
  | [] => .ok []
  | d :: r => do
    let next := r.head?
    if isSpaceOrTab d || isBreak d then .ok []
    else if flow && d = ':' && next.any (fun e => isFlowMark e || e = '?') then
      .error "found unexpected ':'"
    else if d = ':' && endsWord next then .ok []
    else if flow && isFlowMark d then .ok []
    else do
      let text ← word flow r
      .ok (d :: text)

/-- Blanks and breaks behind a word; a tab may not stand for indentation. -/
def gap (fuel : Nat) (indent : Int) (g : Gap) (c : Cursor) : Except String (Gap × Cursor) :=
  match fuel, c.peek? with
  | fuel + 1, some d =>
    if isSpaceOrTab d then
      if g.broken && c.column < indent && d = '\t' then
        .error "found a tab character that violates indentation"
      else
        gap fuel indent (if g.broken then g else { g with blanks := g.blanks ++ [d] })
          (c.advance 1)
    else if isBreak d then
      let g := if g.broken then { g with trailing := g.trailing ++ c.breakText }
        else { g with broken := true, blanks := [], leading := c.breakText }
      gap fuel indent g c.skipBreak
    else .ok (g, c)
  | _, _ => .ok (g, c)

/-- The text from here on, behind the gap `g`, and whether a break ended it. -/
def body (fuel : Nat) (flow : Bool) (indent : Int) (g : Gap) (c : Cursor) :
    Except String ((List Char × Bool) × Cursor) :=
  match fuel with
  | 0 => .ok (([], g.broken), c)
  | fuel + 1 =>
    if c.atDocumentMark || c.peek? = some '#' then .ok (([], g.broken), c)
    else do
      let text ← word flow c.rest
      let c := c.advance text.length
      let shown := if text = [] then [] else g.text ++ text
      let g := if text = [] then g else {}
      if !c.peek?.any (fun d => isSpaceOrTab d || isBreak d) then .ok ((shown, g.broken), c)
      else do
        let (g, c) ← gap c.rest.length indent g c
        if !flow && c.column < indent then .ok ((shown, g.broken), c)
        else do
          let ((more, broken), c) ← body fuel flow indent g c
          .ok ((shown ++ more, broken), c)

/-- The scalar that starts here, inside a collection indented by `parent`, and whether a
break ended it. -/
def scalar (flow : Bool) (parent : Int) : Step (String × Bool) := fun c => do
  let ((text, broken), c) ← body (c.rest.length + 1) flow (parent + 1) {} c
  .ok ((.ofList text, broken), c)

end RepoSelect.Yaml.Unquoted
