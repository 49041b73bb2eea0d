import RouterConsole.Text.Printable

/-!
# Quoted text

The form in which messages quote a text that an operator typed: single quotes, or double ones
where the text holds only single ones, with a backslash before the quote, before a backslash and
in the names of the characters that have no printed form.
-/
namespace RouterConsole.Text

/-- The `width` lowest hexadecimal digits of a number, in lower case. -/
def hexDigits (width n : Nat) : List Char :=
  ((List.range width).map fun i => (n / Nat.pow 16 i % 16).digitChar).reverse

def quotedChar (quote c : Char) : List Char :=
  if c = quote ∨ c = '\\' then ['\\', c]
  else if c = '\n' then ['\\', 'n']
  else if c = '\r' then ['\\', 'r']
  else if c = '\t' then ['\\', 't']
  else if isPrintable c then [c]
  else if c.toNat < 0x100 then '\\' :: 'x' :: hexDigits 2 c.toNat
  else if c.toNat < 0x10000 then '\\' :: 'u' :: hexDigits 4 c.toNat
  else '\\' :: 'U' :: hexDigits 8 c.toNat

def quoteFor (cs : List Char) : Char := if '\'' ∈ cs ∧ '"' ∉ cs then '"' else '\''

def quoted (s : String) : String :=
  let q := quoteFor s.toList
  String.ofList (q :: s.toList.flatMap (quotedChar q) ++ [q])

example : quoted "eth0" = "'eth0'" := by decide

example : quoted "it's" = "\"it's\"" := by decide

example : quoted "a\tb\\" = "'a\\tb\\\\'" := by decide

end RouterConsole.Text
