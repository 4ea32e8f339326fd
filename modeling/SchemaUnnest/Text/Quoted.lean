import SchemaUnnest.Text.Printable

namespace SchemaUnnest.Text

def quoteFor (text : Text) : CodePoint :=
  if text.any (· = '\x27') && text.all (· ≠ '"') then '"' else '\x27'

def quoteOne (quote c : CodePoint) : Text :=
  if c = quote || c = '\\' then ['\\', c]
  else if c = '\n' then "\\n"
  else if c = '\r' then "\\r"
  else if c = '\t' then "\\t"
  else if c.isPrintable then [c]
  else if c.value < 0x100 then "\\x" ++ hex 2 c.value
  else if c.value < 0x10000 then "\\u" ++ hex 4 c.value
  else "\\U" ++ hex 8 c.value

def quoted (text : Text) : Text :=
  let quote := quoteFor text
  quote :: text.flatMap (quoteOne quote) ++ [quote]

end SchemaUnnest.Text
