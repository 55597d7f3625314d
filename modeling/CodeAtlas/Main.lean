/-
This file is the program. The names of the files that it may look at come from the standard
input, one in a line; the syntax tree of a file is described by the file of the same name with
`.outline` after it. All that the program decides, it decides in `Command.run`.
-/

import CodeAtlas.Command.Run
import CodeAtlas.Files.Change

namespace CodeAtlas.Program

/-- The lines that a stream still holds. -/
partial def linesOf (stream : IO.FS.Stream) : IO (List String) := do
  let line ← stream.getLine
  if line.isEmpty then return []
  return String.ofList (Text.dropEnd (· = '\n') line.toList) :: (← linesOf stream)

/-- The content of a file, if it can be read. -/
def content? (path : String) : IO (Option ByteArray) := do
  try return some (← IO.FS.readBinFile path)
  catch _ => return none

/-- The file system with a file of the real one, if it can be read there. -/
def withReal (files : FileSystem) (path : String) : IO FileSystem := do
  match ← content? path with
  | some content => return files.withFile path content
  | none => return files

/-- The files that are looked at even if no one names them: the configuration of a directory and
its ignore files. -/
def settingFiles (directory : String) : List String :=
  [Config.fileIn (Config.directoryIn directory), Path.join directory ".ignore",
    Path.join directory ".gitignore", Path.join directory ".git/info/exclude"]

/-- The syntax tree of a file, if there is one beside it. -/
def knownTree? (files : FileSystem) (path : String) : Option KnownTree := do
  let language ← Language.ofPath? path
  let text ← (files.readBytes path).toOption.map Text.Utf8.decodeLossy
  let (hasSyntaxErrors, root) ← (files.readText? (path ++ ".outline")).bind Outline.read?
  return { language, text, hasSyntaxErrors, root }

/-- Makes a change in the real file system. -/
def perform : Change → IO Unit
  | .directory place => IO.FS.createDirAll (FileSystem.pathOf place)
  | .file place content => IO.FS.writeBinFile (FileSystem.pathOf place) content

end CodeAtlas.Program

open CodeAtlas Program

/-- Runs the program on the files that the standard input names. -/
def main (line : List String) : IO UInt32 := do
  let here := toString (← IO.currentDir)
  let named ← linesOf (← IO.getStdin)
  let arguments := line.flatMap fun argument => [argument, Config.fileIn argument]
  let settings := (here :: Path.parents here).flatMap settingFiles
  let start := (({} : FileSystem).withDirectory here).workingIn here
  let files ← (named ++ arguments ++ settings).foldlM withReal start
  let environment : Command.Environment := {
    logDirectory := ← IO.getEnv "CODEMAP_LOG_DIR" }
  let parser := Parser.ofKnown (named.filterMap (knownTree? files))
  let (ending, after) := Command.run (.builtIn parser) environment files line
  (Change.all files after).forM perform
  IO.print ending.text
  match ending.complaint? with
  | some complaint => IO.eprintln complaint
  | none => pure ()
  return ending.status.toUInt32
