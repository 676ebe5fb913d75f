import NetRun.Text.Shapeless

/-!
# Quoted texts in messages

A path in a message may stand in double quotes, so that blanks at its ends can
be seen.  Quotes of either kind and backslashes are escaped, and what has no
shape of its own is shown by its number.
-/

namespace NetRun.Text

/-- A character between double quotes. -/
def quoteChar
    (c : Char) :
    List Char :=
  match c with
  | '\x22' => ['\\', '\x22']
  | '\x27' => ['\\', '\x27']
  | '\\' => ['\\', '\\']
  | '\n' => ['\\', 'n']
  | '\r' => ['\\', 'r']
  | '\t' => ['\\', 't']
  | '\x00' => ['\\', '0']
  | _ =>
    if isShapeless c then '\\' :: 'u' :: '\x7b' :: Nat.toDigits 16 c.toNat ++ ['\x7d']
    else [c]

/-- A text in double quotes. -/
def quoted
    (text : String) :
    String :=
  String.ofList ('\x22' :: text.toList.flatMap quoteChar ++ ['\x22'])

end NetRun.Text
