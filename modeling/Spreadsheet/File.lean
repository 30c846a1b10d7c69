/-! What a program finds where it looks for a file. -/

namespace Spreadsheet

/-- Why a file cannot be read. -/
inductive ReadFault where
  | missing
  | directory
  /-- The content is not UTF-8. -/
  | notText
  /-- Another fault with its number. -/
  | other (reason : String) (number : Nat)
  deriving DecidableEq, Repr

namespace ReadFault

def numbered (reason : String) (number : Nat) : String :=
  reason ++ " (os error " ++ toString number ++ ")"

def message : ReadFault → String
  | missing => numbered "No such file or directory" 2
  | directory => numbered "Is a directory" 21
  | notText => "stream did not contain valid UTF-8"
  | other reason number => numbered reason number

end ReadFault

/-- What is found at a path. -/
inductive FileEntry where
  /-- There is nothing. -/
  | absent (fault : ReadFault)
  /-- There is something that cannot be read. -/
  | unreadable (fault : ReadFault)
  | content (bytes : ByteArray)

/-- The text of a file. -/
def FileEntry.text : FileEntry → Except ReadFault String
  | absent fault | unreadable fault => .error fault
  | content bytes =>
    match String.fromUTF8? bytes with
    | some text => .ok text
    | none => .error .notText

/-- What is found at every path. -/
abbrev Files := String → FileEntry

end Spreadsheet
