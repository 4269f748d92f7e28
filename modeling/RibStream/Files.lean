/-
This file defines what can be seen of the files around a program, and trees of files as one instance.
-/

import RibStream.Error

namespace RibStream

/-- The files that can be found, and which of them a path leads to. A path can be absolute or relative
to a working directory, and several paths can lead to one file. A file can fail to open. -/
structure Files (Content : Type) where
  count : Nat
  find? : String → Option (Fin count)
  read : Fin count → Except Error Content

namespace Files

variable {Content Result : Type}

def empty : Files Content := ⟨0, fun _ => none, fun file => file.elim0⟩

/-- The same files with another content. -/
def map (files : Files Content) (change : Content → Result) : Files Result :=
  ⟨files.count, files.find?, fun file => (files.read file).map change⟩

end Files

/-- Files by their absolute location, with the directories on the way to them. A link stands for
another location. -/
structure FileTree (Content : Type) where
  workingDirectory : List String
  directories : List (List String)
  links : List (List String × List String)
  entries : List (List String × Content)

namespace FileTree

variable {Content : Type}

/-- The names between the slashes of a path. -/
def components (path : String) : List String :=
  (path.toList.splitOn '/').map String.ofList

def isAbsolute (path : String) : Bool :=
  path.toList.head? == some '/'

def isFile (tree : FileTree Content) (location : List String) : Bool :=
  tree.entries.any fun entry => entry.1 == location

/-- A directory is given as such or is on the way to something else. -/
def isDirectory (tree : FileTree Content) (location : List String) : Bool :=
  !tree.isFile location &&
    (tree.workingDirectory :: tree.directories ++ tree.links.map Prod.fst ++
      tree.entries.map Prod.fst).any location.isPrefixOf

/-- One step of a look-up, which is possible only in a directory. Nothing is above the root. -/
def step (tree : FileTree Content) (location : List String) (component : String) :
    Option (List String) :=
  if !tree.isDirectory location then none
  else if component = "" || component = "." then some location
  else if component = ".." then some location.dropLast
  else
    let next := location ++ [component]
    let reached := (tree.links.lookup next).getD next
    if tree.isFile reached || tree.isDirectory reached then some reached else none

/-- The greatest number of bytes in a path. -/
def longestPath : Nat := 4095

/-- The location at the end of a path. -/
def location? (tree : FileTree Content) (path : String) : Option (List String) :=
  if longestPath < path.utf8ByteSize then none
  else (components path).foldlM tree.step (if isAbsolute path then [] else tree.workingDirectory)

def files (tree : FileTree Content) : Files Content where
  count := tree.entries.length
  find? path := do
    let location ← tree.location? path
    tree.entries.findFinIdx? fun entry => entry.1 == location
  read file := .ok tree.entries[file].2

/-- The location of a path without steps up. -/
def locationOf (path : String) : List String :=
  (components path).filter fun component => component != "" && component != "."

/-- A tree with a working directory and files at paths below it. -/
def ofPaths (workingDirectory : List String) (entries : List (String × Content)) :
    FileTree Content where
  workingDirectory
  directories := []
  links := []
  entries := entries.map fun (path, content) =>
    (workingDirectory ++ locationOf path, content)

end FileTree

end RibStream
