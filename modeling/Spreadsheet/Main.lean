import Std.Time
import Spreadsheet.CommandLine.Run

/-! The program: it reads the files it is asked for, and prints what the library answers. -/

namespace Spreadsheet.Main

/-- What is found at a path. -/
def readEntry (path : String) : IO FileEntry := do
  try
    return .content (← IO.FS.readBinFile path)
  catch
    | .noFileOrDirectory _ _ _ | .noSuchThing _ _ _ => return .absent .missing
    | .inappropriateType _ 21 _ => return .unreadable .directory
    | .inappropriateType _ code details => return .absent (.other details code.toNat)
    | .permissionDenied _ code details => return .unreadable (.other details code.toNat)
    | e => return .unreadable (.other (toString e) 5)

/-- Where the user's own settings would be. -/
def ownSettings : IO (Option String) := do
  let place := "/gridcalc/config.toml"
  match ← IO.getEnv "XDG_CONFIG_HOME" with
  | some folder => if folder.toList.head? == some '/' then return some (folder ++ place)
  | none => pure ()
  return (← IO.getEnv "HOME").map fun folder => folder ++ "/.config" ++ place

/-- The time, and a seed for chance. -/
def ambient : IO Ambient := do
  let now ← Std.Time.PlainDateTime.now
  let day := Calendar.Civil.dayNumber
    ⟨now.date.year.toInt, now.date.month.toNat, now.date.day.toNat⟩
  let bytes ← IO.getRandomBytes 8
  return ⟨⟨day, now.time.toSeconds.val.toNat, now.time.nanosecond.val.toNat⟩, bytes.toUInt64LE!⟩

/-- Run the program with the files that its arguments name. -/
def runWith (arguments : List String) : IO UInt32 := do
  let own ← ownSettings
  let paths := match CommandLine.Options.read arguments with
    | .ok o => (o.settings <|> own).toList ++ o.script.toList
    | .error _ => []
  let entries ← paths.mapM fun path => return (path, ← readEntry path)
  let files (path : String) : FileEntry := (entries.lookup path).getD (.absent .missing)
  let report := CommandLine.run arguments ⟨files, own, ← ambient⟩
  for line in report.output do
    IO.println line
  for line in report.messages do
    IO.eprintln line
  return report.exitCode.toUInt32

end Spreadsheet.Main

def main (arguments : List String) : IO UInt32 := Spreadsheet.Main.runWith arguments
