import PacketStack.Text.Hex
import PacketStack.Text.Visible

/-!
Text between quotes, in which characters that would be lost or misread are escaped.
-/

namespace PacketStack.Text

/-- A character inside quotes. What has no escape of its own and is not seen is shown as its code
point. -/
def escapedChar (c : Char) : String :=
  if c = '\x00' then "\\0"
  else if c = '\t' then "\\t"
  else if c = '\n' then "\\n"
  else if c = '\r' then "\\r"
  else if c = '\x22' then "\\\""
  else if c = '\\' then "\\\\"
  else if isVisible c then c.toString
  else "\\u\x7b" ++ hexNumber c.toNat ++ "\x7d"

def escaped (text : String) : String := "\"" ++ String.join (text.toList.map escapedChar) ++ "\""

end PacketStack.Text
