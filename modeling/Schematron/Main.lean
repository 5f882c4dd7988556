import Schematron.Command.Run

/-! The command line: reads the files around, lets the command do its work, and prints. What is read
through a symbolic link counts as a file or directory of its own. -/

namespace Schematron.Command

partial def collect (entries : Array IO.FS.DirEntry) (tree : FileTree) : IO FileTree := do
  let mut tree := tree
  for entry in entries do
    let parts := (Path.ofString entry.path.toString).parts
    if ← entry.path.isDir then
      tree ← collect (← entry.path.readDir) (tree.addDirectory parts)
    else
      try tree := tree.write parts (← IO.FS.readBinFile entry.path)
      catch _ => pure ()
  return tree

def collectFile (path : Path) (tree : FileTree) : IO FileTree := do
  try return tree.write path.parts (← IO.FS.readBinFile path.toString)
  catch _ => return tree

def readHomes : IO (List (String × String)) := do
  try
    let accounts ← IO.FS.readFile "/etc/passwd"
    return (Text.splitString '\n' accounts).filterMap fun account =>
      match Text.splitString ':' account with
      | name :: _ :: _ :: _ :: _ :: home :: _ => some (name, home)
      | _ => none
  catch _ => return []

def readDesk (arguments : List String) : IO Desk := do
  let here ← IO.currentDir
  let directory := Path.ofString here.toString
  let mut tree ← collect (← here.readDir) (FileTree.empty.addDirectory directory.parts)
  for length in List.range directory.parts.length do
    tree ← collectFile ⟨.slash, directory.parts.take length ++ [Settings.fileName]⟩ tree
  for argument in arguments do
    let path := directory.join (.ofString argument)
    tree ← collectFile ⟨.slash, Path.withoutDots path.parts⟩ tree
  let own := (← IO.getEnv "HOME").map fun home => ("", home)
  let homes := own.toList ++ (← readHomes)
  return ⟨tree, ⟨directory, fun user => homes.lookup user⟩⟩

end Schematron.Command

open Schematron.Command in
def main (arguments : List String) : IO UInt32 := do
  let (ending, transcript) := run (← readDesk arguments) arguments
  for line in transcript.lines do IO.println line
  match ending with
  | .exit code => return code.toUInt32
  | .crash failure =>
      IO.eprintln failure.message.toStringLossy
      return 1
