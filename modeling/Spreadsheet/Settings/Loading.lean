import Spreadsheet.File
import Spreadsheet.Settings.Document
import Spreadsheet.Text.Blank

/-! Loading settings from a file. It never fails: what cannot be used is reported, and the default
takes its place. -/

namespace Spreadsheet.Settings

inductive Warning where
  | notFound (path : String)
  | tooLarge (path : String) (size : Nat)
  | unreadable (path : String) (fault : ReadFault)
  | malformed (path : String)
  | noDependencyCells
  | noDatePatterns
  deriving DecidableEq, Repr

/-- The largest size of a file of settings, in bytes. -/
def largestSize : Nat := 1048576

namespace Warning

def message : Warning → String
  | notFound path => "Config file not found: " ++ path
  | tooLarge path size =>
    "Refusing to read " ++ path ++ ": file too large (" ++ toString size ++ " bytes, max " ++
      toString largestSize ++ ")"
  | unreadable path fault => "Failed to read " ++ path ++ ": " ++ fault.message
  | malformed path => "Failed to parse " ++ path ++ ": not a document of settings"
  | noDependencyCells =>
    "max_dependency_cells must be positive; using " ++
      toString (default : Settings).maxDependencyCells
  | noDatePatterns => "date_formats has no usable entries; using defaults"

end Warning

/-- Put defaults in the place of a count of zero, and report it. -/
def mendCells (s : Settings) : Settings × List Warning :=
  if s.maxDependencyCells = 0 then
    ({ s with maxDependencyCells := (default : Settings).maxDependencyCells }, [.noDependencyCells])
  else (s, [])

/-- Put defaults in the place of patterns that are all blank. That there are none at all is not
worth a warning. -/
def mendPatterns (s : Settings) : Settings × List Warning :=
  if s.datePatterns.all fun p => (Text.trim p).isEmpty then
    ({ s with datePatterns := (default : Settings).datePatterns },
      if s.datePatterns.isEmpty then [] else [.noDatePatterns])
  else (s, [])

/-- Settings that can be used, with what had to be mended. -/
def mended (s : Settings) : Settings × List Warning :=
  let (s, first) := s.mendCells
  let (s, second) := s.mendPatterns
  (s, first ++ second)

/-- How a text is read as settings, if it is a document of them. -/
abbrev Reader := String → Option Settings

/-- The settings in a file as they are. -/
def ofFile (path : String) (entry : FileEntry) (read : Reader := ofText?) :
    Except Warning Settings :=
  let text : Except Warning String :=
    match entry with
    | .content bytes =>
      if largestSize < bytes.size then .error (.tooLarge path bytes.size)
      else entry.text.mapError (.unreadable path)
    | _ => entry.text.mapError (.unreadable path)
  text.bind fun text => (read text).elim (.error (.malformed path)) .ok

/-- The settings in the file that is asked for, or else in the user's own, with what is wrong with
them. Only a file that is asked for is missed. -/
def load (files : Files) (asked own : Option String) (read : Reader := ofText?) :
    Settings × List Warning :=
  match asked <|> own with
  | none => ({}, [])
  | some path =>
    match files path with
    | .absent _ => ({}, if asked.isSome then [.notFound path] else [])
    | entry =>
      match ofFile path entry read with
      | .error w => ({}, [w])
      | .ok s => s.mended

end Spreadsheet.Settings
