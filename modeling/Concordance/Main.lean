import Concordance.Command.Basic

/-! # The program

The commands on the disk of the machine.
-/

namespace Concordance

/-- The files below the current directory, except hidden ones. Links are not followed, and
directories that cannot be read are passed over. -/
def machineFiles : IO (List (List String)) := do
  let mut found : List (List String) := []
  let mut pending := [(← IO.currentDir, ([] : List String))]
  while !pending.isEmpty do
    match pending with
    | [] => pure ()
    | (directory, names) :: rest =>
        pending := rest
        let entries ← try directory.readDir catch _ => pure #[]
        for entry in entries do
          if !Catalog.isHidden entry.fileName then
            let place := names ++ [entry.fileName]
            match (← entry.path.symlinkMetadata).type with
            | .dir => pending := (entry.path, place) :: pending
            | .file => found := place :: found
            | _ => pure ()
  return found

def machineRead (path : String) : IO (Except ReadFailure String) := do
  try return .ok (← IO.FS.readFile path)
  catch
    | .noFileOrDirectory .. => return .error .missing
    | _ => return .error .unreadable

def machineWrite (path text : String) : IO Bool := do
  try
    match Text.cutLast? '/' path.toList with
    | some (c :: directory, _) => IO.FS.createDirAll (String.ofList (c :: directory))
    | _ => pure ()
    IO.FS.writeFile path text
    return true
  catch _ => return false

def Disk.ofMachine : Disk IO where
  files := machineFiles
  read := machineRead
  write := machineWrite

end Concordance

def main (args : List String) : IO UInt32 := do
  let response ← Concordance.Command.run Concordance.Disk.ofMachine args
  IO.print response.outText
  IO.eprint response.errText
  return UInt32.ofNat response.exit
