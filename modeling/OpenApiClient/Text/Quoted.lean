import OpenApiClient.Text.Printable

/-! # Quoted literals

A text is quoted with apostrophes, or with double quotes when it holds apostrophes and no double
quote. Inside, the quote and the backslash are escaped, and so is every character that is not
printable. -/
namespace OpenApiClient.Text

/-- The digit of a number below sixteen, small letters after nine. -/
def hexDigit (n : Nat) : Char := Nat.digitChar n

/-- A number in exactly `width` hexadecimal digits, higher ones cut. -/
def hexDigits : (width : Nat) → Nat → List Char
  | 0, _ => []
  | width + 1, n => hexDigits width (n / 16) ++ [hexDigit (n % 16)]

def quoteFor (cs : List Char) : Char :=
  if cs.contains '\'' && !cs.contains '"' then '"' else '\''

/-- A character as it stands in a literal with the given quote. -/
def escapeIn (quote c : Char) : List Char :=
  if c = quote || c = '\\' then ['\\', c]
  else if c = '\t' then ['\\', 't']
  else if c = '\n' then ['\\', 'n']
  else if c = '\r' then ['\\', 'r']
  else if isPrintable c then [c]
  else if code c ≤ 0xff then '\\' :: 'x' :: hexDigits 2 (code c)
  else if code c ≤ 0xffff then '\\' :: 'u' :: hexDigits 4 (code c)
  else '\\' :: 'U' :: hexDigits 8 (code c)

def quotedChars (cs : List Char) : List Char :=
  let quote := quoteFor cs
  quote :: cs.flatMap (escapeIn quote) ++ [quote]

def quoted (s : String) : String := String.ofList (quotedChars s.toList)

example : quotedChars ['i', 't', '\'', 's'] = ['"', 'i', 't', '\'', 's', '"'] := by decide

example : quotedChars ['\x00', '\n'] = ['\'', '\\', 'x', '0', '0', '\\', 'n', '\''] := by decide

end OpenApiClient.Text
