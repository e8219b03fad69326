import ChatRelay.Files
import ChatRelay.Table

/-!
# A tree of files

Files and directories held in memory, under the names of the directories that lead to them. A
program runs at the root. Of a store that is kept in files only its directory is shown.
-/

namespace ChatRelay.Simulation

/-- What there is at each place. A directory has no contents. -/
structure FileTree where
  nodes : Table (List String) (Option Bytes)

namespace FileTree

/-- The tree with a root and nothing else. -/
def empty : FileTree := ⟨Table.empty.insert [] none⟩

/-- The place that the parts of a path lead to. Whatever is passed on the way must be a directory;
at the place itself there may be nothing. -/
def follow (tree : FileTree) : List String → List String → Except FileError (List String)
  | place, [] => .ok place
  | place, part :: rest =>
    match tree.nodes.get? place with
    | none => .error .notFound
    | some (some _) => .error .notDirectory
    | some none =>
      if FilePath.isIdle part then tree.follow place rest
      else if part = ".." then tree.follow place.dropLast rest
      else tree.follow (place ++ [part]) rest

/-- The place of a path. -/
def resolve (tree : FileTree) (path : String) : Except FileError (List String) :=
  if path.isEmpty then .error .notFound else tree.follow [] (FilePath.parts path)

/-- Whether there is something at a path. -/
def has (tree : FileTree) (path : String) : Bool :=
  match tree.resolve path with
  | .ok place => tree.nodes.contains place
  | .error _ => false

/-- The contents of a file. -/
def read (tree : FileTree) (path : String) : Except FileError Bytes :=
  match tree.resolve path with
  | .error cause => .error cause
  | .ok place =>
    match tree.nodes.get? place with
    | none => .error .notFound
    | some none => .error .isDirectory
    | some (some contents) => .ok contents

/-- Writes a file. A path that ends in a slash is no file's. -/
def write (tree : FileTree) (path : String) (contents : Bytes) : Except FileError Unit × FileTree :=
  let trimmed := String.ofList (path.toList.reverse.dropWhile (· = '/')).reverse
  match tree.resolve (if trimmed.isEmpty then path else trimmed) with
  | .error cause => (.error cause, tree)
  | .ok place =>
    if tree.nodes.get? place = some none ∨ trimmed ≠ path then (.error .isDirectory, tree)
    else (.ok (), ⟨tree.nodes.insert place (some contents)⟩)

/-- Makes the directories that lead from a place along the parts of a path. -/
def create (tree : FileTree) : List String → List String → Except FileError Unit × FileTree
  | _, [] => (.ok (), tree)
  | place, part :: rest =>
    if FilePath.isIdle part then tree.create place rest
    else if part = ".." then tree.create place.dropLast rest
    else
      let place := place ++ [part]
      match tree.nodes.get? place with
      | none => create ⟨tree.nodes.insert place none⟩ place rest
      | some none => tree.create place rest
      | some (some _) =>
        (.error (if rest.all FilePath.isIdle then .alreadyExists else .notDirectory), tree)

/-- Answers an operation on files. -/
def serve : (call : FileCall) → FileTree → call.Answer × FileTree
  | .present path, tree => (tree.has path, tree)
  | .read path, tree => (tree.read path, tree)
  | .write path contents, tree => tree.write path contents
  | .createDirectories path, tree => tree.create [] (FilePath.parts path)
  | .openStore path, tree =>
    let (made, tree) := tree.create [] (FilePath.parts path)
    (made.mapError fun cause => .databaseOpen "outpoints" ("IO error: " ++ cause.message), tree)
  | .makeClient _, tree => (.ok (), tree)

end FileTree

end ChatRelay.Simulation
