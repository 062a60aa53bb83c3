/-!
# Directories

A directory as it is found, with its files and the directories below it, and looking up a path in it.
Nothing is known of what lies outside, except that the directories around it and the root are there.
-/

namespace ByteTape.Cli

/-- A path without empty parts and without parts that stay in place. -/
structure Path where
  /-- The slashes it starts with: none, one, or exactly two. -/
  root : String
  parts : List String
deriving DecidableEq, Repr

namespace Path

def ofText (text : String) : Path :=
  let root := match text.toList with
    | '/' :: '/' :: '/' :: _ => "/"
    | '/' :: '/' :: _ => "//"
    | '/' :: _ => "/"
    | _ => ""
  { root, parts := (text.splitOn "/").filter fun part => part ≠ "" && part ≠ "." }

def toText (path : Path) : String :=
  match path.root ++ "/".intercalate path.parts with
  | "" => "."
  | text => text

end Path

structure Directory where
  files : List (List String × List UInt8) := []
  /-- Directories below this one that need not hold a file. -/
  directories : List (List String) := []

inductive Entry
  | file (bytes : List UInt8)
  | directory
deriving DecidableEq, Repr

/-- What looking up a path gives. -/
inductive Lookup
  | entry (entry : Entry)
  | missing
  /-- A part before the last is a file. -/
  | throughFile
  /-- The path or one of its parts is too long. -/
  | tooLong
  /-- The path contains the null character. -/
  | nullByte
deriving DecidableEq, Repr

namespace Directory

def entry? (directory : Directory) (parts : List String) : Option Entry :=
  match directory.files.lookup parts with
  | some bytes => some (.file bytes)
  | none =>
      if (directory.directories ++ directory.files.map (·.1)).any parts.isPrefixOf || parts.isEmpty
      then some .directory
      else none

/-- The most bytes that a name may have. -/
def maxNameBytes : Nat := 255

/-- The most bytes that a path may have. -/
def maxPathBytes : Nat := 4095

/-- Follows parts from a directory outside. -/
def followOutside : List String → Lookup
  | [] => .entry .directory
  | part :: rest =>
      if part = ".." then followOutside rest
      else if maxNameBytes < part.utf8ByteSize then .tooLong
      else .missing

/-- Follows parts from a place below the directory. -/
def follow (directory : Directory) (place : List String) : List String → Lookup
  | [] =>
      match directory.entry? place with
      | some entry => .entry entry
      | none => .missing
  | part :: rest =>
      match directory.entry? place with
      | none => .missing
      | some (.file _) => .throughFile
      | some .directory =>
          if maxNameBytes < part.utf8ByteSize then .tooLong
          else if part ≠ ".." then directory.follow (place ++ [part]) rest
          else if place.isEmpty then followOutside rest
          else directory.follow place.dropLast rest

def lookup (directory : Directory) (path : Path) : Lookup :=
  if path.toText.contains '\x00' then .nullByte
  else if maxPathBytes < path.toText.utf8ByteSize then .tooLong
  else if path.root = "" then directory.follow [] path.parts
  else followOutside path.parts

end Directory

end ByteTape.Cli
