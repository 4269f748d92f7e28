/-
This file defines the list of directories in which archives are looked up.
-/

import RibStream.Files

namespace RibStream

/-- The directories in the order in which they are tried. -/
structure SearchPath where
  directories : List String
deriving DecidableEq

namespace SearchPath

def empty : SearchPath := ⟨[]⟩

/-- A colon belongs to its entry when it follows a single letter and precedes a slash, as in a drive
letter. -/
def isDriveColon (entry rest : List Char) : Bool :=
  match entry, rest with
  | [letter], next :: _ => letter.isAlpha && (next == '/' || next == '\\')
  | _, _ => false

/-- The pieces between separators, after `entry`, which is the part of the first piece already read,
last character first. -/
def piecesFrom (entry : List Char) : List Char → List (List Char)
  | [] => [entry.reverse]
  | character :: rest =>
      if character = ';' || character = ':' && !isDriveColon entry rest then
        entry.reverse :: piecesFrom [] rest
      else piecesFrom (character :: entry) rest

/-- The entries of a list separated by colons and semicolons. Empty entries are dropped. -/
def split (text : String) : List String :=
  ((piecesFrom [] text.toList).filter (!·.isEmpty)).map String.ofList

/-- The path that a list of entries stands for. The entry `&` stands for the previous path. -/
def expand (path : SearchPath) (text : String) : SearchPath :=
  ⟨(split text).flatMap fun entry => if entry = "&" then path.directories else [entry]⟩

def parse (text : String) : SearchPath :=
  empty.expand text

/-- A directory and a relative name joined by one slash. -/
def join (directory name : String) : String :=
  if directory.toList.getLast? = some '/' then directory ++ name else directory ++ "/" ++ name

/-- The paths to try for a name, in order. An absolute name is taken as it is, and so is every name
as long as the search path is empty. -/
def candidates (path : SearchPath) (name : String) : List String :=
  if name = "" then []
  else if FileTree.isAbsolute name || path.directories.isEmpty then [name]
  else path.directories.map fun directory => join directory name

variable {Content : Type}

/-- The first candidate that is a file, with the file. -/
def locate? (path : SearchPath) (files : Files Content) (name : String) :
    Option (String × Fin files.count) :=
  (path.candidates name).findSome? fun candidate =>
    (files.find? candidate).map fun file => (candidate, file)

def find? (path : SearchPath) (files : Files Content) (name : String) : Option String :=
  (path.locate? files name).map Prod.fst

end SearchPath

end RibStream
