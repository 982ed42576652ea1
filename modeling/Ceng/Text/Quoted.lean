import Ceng.Text.CodePoint
import Ceng.Text.Printable

/-!
# Quoted text

Text between quotes, on one line and with printable characters only. Single
quotes are used unless the text has a single quote and no double quote.
-/
namespace Ceng.Text

/-- The quote that is put around a text. -/
def quoteMark (text : List Char) : Char :=
  if text.contains '\x27' && !text.contains '"' then '"' else '\x27'

/-- How a character is written between the given quotes. -/
def quoteChar (mark c : Char) : List Char :=
  if c = mark ∨ c = '\\' then ['\\', c]
  else if c = '\n' then ['\\', 'n']
  else if c = '\r' then ['\\', 'r']
  else if c = '\t' then ['\\', 't']
  else if isPrintable c then [c]
  else escapeCodePoint c

def quote (text : String) : String :=
  let mark := quoteMark text.toList
  String.ofList (mark :: (text.toList.flatMap (quoteChar mark) ++ [mark]))

end Ceng.Text
