import RowGraph.Text.Printable

/-!
Quoted texts, as they stand in messages: between double quotes, with a backslash before the two
characters that would be misread and an escape for each character that cannot be seen.
-/

namespace RowGraph
namespace Text

def escape (c : Char) : String :=
  if c = '\x00' then "\\0"
  else if c = '\t' then "\\t"
  else if c = '\r' then "\\r"
  else if c = '\n' then "\\n"
  else if c = '"' then "\\\""
  else if c = '\\' then "\\\\"
  else if isShown c then String.singleton c
  else "\\u\x7b" ++ String.ofList (Nat.toDigits 16 c.toNat) ++ "\x7d"

def quoted (s : String) : String :=
  "\"" ++ String.join (s.toList.map escape) ++ "\""

end Text
end RowGraph
