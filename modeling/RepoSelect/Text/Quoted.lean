import RepoSelect.Text.Hidden
import RepoSelect.Text.Lower

/-!
# Quoted text

A text between quotes, as messages show it: quotes and backslashes are escaped, and so is
every character that would not show.
-/

namespace RepoSelect

namespace Text

/-- One character between quotes. -/
def quoteChar (c : Char) : List Char :=
  match c with
  | '\x00' => ['\\', '0']
  | '\t' => ['\\', 't']
  | '\r' => ['\\', 'r']
  | '\n' => ['\\', 'n']
  | '"' => ['\\', '"']
  | '\\' => ['\\', '\\']
  | c =>
    if inRanges hiddenRanges c then
      '\\' :: 'u' :: '\x7b' :: Nat.toDigits 16 c.toNat ++ ['\x7d']
    else [c]

end Text

def quotedText (s : String) : String :=
  String.ofList ('"' :: s.toList.flatMap Text.quoteChar ++ ['"'])

end RepoSelect
