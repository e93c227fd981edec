import ContractAbi.Text.GraphemeExtend
/-!
Quoted literals of strings and characters. Backslash, the delimiting quote and the characters
NUL, tab, return and newline take a backslash escape; marks that extend a grapheme and characters
that are not printable take the escape `\u` with the code point in lowercase hex between braces;
every other character stands for itself.
-/

namespace ContractAbi.Text

inductive Quote where
  | double
  | single

def Quote.char : Quote → Char
  | .double => '"'
  | .single => Char.ofNat 39

/-- The escape of a code point: backslash, `u` and its lowercase hex digits in braces. -/
def unicodeEscape (c : Char) : String :=
  "\\u\x7b" ++ String.ofList (Nat.toDigits 16 c.toNat) ++ "\x7d"

def escapeChar (q : Quote) (c : Char) : String :=
  if c = '\x00' then "\\0"
  else if c = '\t' then "\\t"
  else if c = '\r' then "\\r"
  else if c = '\n' then "\\n"
  else if c = '\\' then "\\\\"
  else if c = q.char then String.ofList ['\\', c]
  else if isGraphemeExtend c then unicodeEscape c
  else if isPrintable c then String.ofList [c]
  else unicodeEscape c

def quoteString (s : String) : String :=
  "\"" ++ String.join (s.toList.map (escapeChar .double)) ++ "\""

def quoteChar (c : Char) : String :=
  String.ofList [Quote.single.char] ++ escapeChar .single c ++ String.ofList [Quote.single.char]

end ContractAbi.Text
