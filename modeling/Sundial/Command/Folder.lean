import Sundial.Command.Script
import Sundial.Ledger

/-!
# Folders in memory

A folder holds texts by their sites and may be used in place of a working directory. A site is a
list of names from a root on; every list in front of the names of a file is a directory. A path is
followed name by name, and each of its names but the last one has to lead to a directory, also where
the next name leads back. Of the directories that the folder lies in nothing is known. The system has
a device that stays empty and may have one that holds the input.
-/

set_option autoImplicit false

namespace Sundial

/-- Where the names of a site start. -/
inductive Root where
  /-- In the folder. -/
  | folder
  /-- In a directory that the folder lies in. -/
  | above
  /-- At the top of the system. -/
  | system
  deriving DecidableEq, Repr

/-- A place for a file or a directory, which may be free. -/
structure Site where
  root : Root
  names : List String
  deriving DecidableEq, Repr

namespace Site

def here : Site := ⟨.folder, []⟩

/-- The file that takes every text and stays empty. -/
def emptyDevice : Site := ⟨.system, ["dev", "null"]⟩

/-- The file that holds the input. -/
def inputDevice : Site := ⟨.system, ["dev", "stdin"]⟩

/-- The directory around a site; the one around the topmost is itself. -/
def up (s : Site) : Site :=
  if s.names.isEmpty ∧ s.root = .folder then ⟨.above, []⟩ else { s with names := s.names.dropLast }

def down (s : Site) (name : String) : Site := { s with names := s.names ++ [name] }

/-- The site `t` lies in the directory `s`, at any depth. -/
def holds (s t : Site) : Bool :=
  s.root = t.root && s.names.isPrefixOf t.names && s.names.length < t.names.length

/-- The site that the names of a path start from, and the names. -/
def start (path : String) : Site × List String :=
  match path.splitOn "/" with
  | "" :: names => (⟨.system, []⟩, names)
  | names => (here, names)

end Site

structure Folder where
  files : Ledger Site String
  /-- Directories besides those that files stand in. -/
  directories : List Site

/-- What stands at a site. -/
inductive Entry where
  | file (text : String)
  | directory
  | absent

namespace Folder

/-- Directories that every system has. -/
def systemDirectories : List Site :=
  ["bin", "dev", "etc", "home", "lib", "mnt", "opt", "proc", "root", "run", "sbin", "srv", "sys",
    "tmp", "usr", "var"].map fun name => ⟨.system, [name]⟩

def empty : Folder := ⟨.empty, systemDirectories⟩

def ofList (files : List (String × String)) : Folder :=
  ⟨.ofList (files.map fun f => (⟨.folder, f.1.splitOn "/"⟩, f.2)), systemDirectories⟩

/-- The folder with the input in place of its device. -/
def withInput (d : Folder) (input : String) : Folder :=
  { d with files := d.files.put Site.inputDevice input }

/-- The site is a directory: a root, one that was made, or one on the way to a file. -/
def isDirectory (d : Folder) (s : Site) : Bool :=
  s.names.isEmpty || d.directories.contains s || d.files.keys.any s.holds

def entry (d : Folder) (s : Site) : Entry :=
  if s = Site.emptyDevice then .file ""
  else match d.files.get? s with
    | some text => .file text
    | none => if d.isDirectory s then .directory else .absent

/-- The greatest number of bytes in a name. -/
def longestName : Nat := 255

/-- The greatest number of bytes in a path. -/
def longestPath : Nat := 4095

/-- One name further, from a directory. -/
def step (d : Folder) (s : Site) (name : String) : Except FileFault Site :=
  match d.entry s with
  | .file _ => .error .notDirectory
  | .absent => .error .missing
  | .directory =>
    if name = "" ∨ name = "." then .ok s
    else if name = ".." then .ok s.up
    else if longestName < name.utf8ByteSize then .error .nameTooLong
    else .ok (s.down name)

/-- The site that a path leads to. -/
def locate (d : Folder) (path : String) : Except FileFault Site :=
  if path = "" then .error .missing
  else if longestPath < path.utf8ByteSize then .error .nameTooLong
  else (Site.start path).2.foldlM d.step (Site.start path).1

def read (d : Folder) (path : String) : Except FileFault String := do
  match d.entry (← d.locate path) with
  | .file text => return text
  | .directory => .error .isDirectory
  | .absent => .error .missing

def has (d : Folder) (path : String) : Bool :=
  match (d.locate path).map d.entry with
  | .ok (.file _) | .ok .directory => true
  | .ok .absent | .error _ => false

/-- The names right in a directory, each once. -/
def names (d : Folder) (s : Site) : List String :=
  ((d.files.keys ++ d.directories).filterMap fun t =>
    if s.holds t then (t.names.drop s.names.length).head? else none).eraseDups

def list (d : Folder) (path : String) : Except FileFault (List String) := do
  let s ← d.locate path
  match d.entry s with
  | .directory => return d.names s
  | .file _ => .error .notDirectory
  | .absent => .error .missing

/-- Writes a file into a directory that is there. A path that ends with a slash names none. -/
def write (d : Folder) (path text : String) : Except FileFault Folder :=
  if path.endsWith "/" then .error .isDirectory
  else do
    let s ← d.locate path
    match d.entry s with
    | .directory => .error .isDirectory
    | .file _ | .absent =>
      return if s = Site.emptyDevice then d else { d with files := d.files.put s text }

/-- The folder with a directory at a site, if nothing stands there yet. -/
def fill (d : Folder) (s : Site) : Folder :=
  match d.entry s with
  | .absent => { d with directories := d.directories ++ [s] }
  | .file _ | .directory => d

/-- One name further, from a directory that is made if need be. -/
def makeStep (here : Folder × Site) (name : String) : Except FileFault (Folder × Site) :=
  let d := here.1.fill here.2
  (d.step here.2 name).map fun s => (d, s)

/-- Makes a directory and all that lead to it. -/
def makeDirectories (d : Folder) (path : String) : Except FileFault Folder :=
  if path = "" then .ok d
  else if longestPath < path.utf8ByteSize then .error .nameTooLong
  else do
    let (d, s) ← (Site.start path).2.foldlM makeStep (d, (Site.start path).1)
    match d.entry s with
    | .file _ => .error .occupied
    | .directory | .absent => return d.fill s

/-- The files that are not in an earlier folder, or not with this content. -/
def changesFrom (earlier d : Folder) : List (String × String) :=
  (d.files.entries.filter fun e =>
    e.1.root = .folder ∧ earlier.files.get? e.1 ≠ some e.2).map fun e =>
      ("/".intercalate e.1.names, e.2)

end Folder

end Sundial
