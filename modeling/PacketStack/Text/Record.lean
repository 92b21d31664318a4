import PacketStack.Text.Hex

/-!
The one-line descriptions of records, options, lists and flag sets.
-/

namespace PacketStack.Text

def quoted (text : String) : String := "\"" ++ text ++ "\""

def quotedBytes (bytes : Bytes) : String := quoted (payload bytes)

def members (fields : List (String × String)) : String :=
  ", ".intercalate (fields.map fun (field, value) => field ++ ": " ++ value)

def record (name : String) (fields : List (String × String)) : String :=
  name ++ " \x7b " ++ members fields ++ " \x7d"

def openRecord (name : String) (fields : List (String × String)) : String :=
  name ++ " \x7b " ++ members fields ++ ", .. \x7d"

def tuple (name : String) (value : String) : String := name ++ "(" ++ value ++ ")"

def list (items : List String) : String := "[" ++ ", ".intercalate items ++ "]"

def table (entries : List (String × String)) : String :=
  "\x7b" ++ members entries ++ "\x7d"

def numbers (bytes : Bytes) : String := list (bytes.map toString)

def optional : Option String → String
  | none => "None"
  | some value => tuple "Some" value

def flags (name : String) (named : List (String × Nat)) (bits : Nat) : String :=
  let present := named.filter fun (_, mask) => bits &&& mask == mask
  let rest := present.foldl (fun left (_, mask) => left - (left &&& mask)) bits
  let texts := present.map (·.1) ++ if rest = 0 then [] else ["0x" ++ hexNumber rest]
  tuple name (if texts.isEmpty then "0x0" else " | ".intercalate texts)

def other (n : Nat) : String := tuple "Other" (toString n)

end PacketStack.Text
