import Weave.Failure
import Weave.Path

/-!
# File trees

Files and directories below and around a working directory. A place is the list of names that leads
to it from the working directory, the names `..` in front; what lies outside is known only as far as
it has been written. A tree answers as a file system does, with the first part of a path that cannot
be followed.
-/

namespace Weave.Command

/-- The content of a file, or that its bytes are no text. -/
inductive Content where
  | text (s : String)
  | bytes
  deriving DecidableEq, Repr

inductive FileNode where
  | directory
  | file (content : Content)
  deriving DecidableEq, Repr

/-- A way from the working directory, or from the root, which has the name `/`. -/
abbrev Place := List String

structure FileTree where
  nodes : List (Place × FileNode) := []
  deriving DecidableEq, Repr

namespace FileTree

/-- Whether a place is the working directory, one above it, or the root. These are always there. -/
def isTop (place : Place) : Bool :=
  place.all (· == "..") || place == ["/"]

def get? (tree : FileTree) (place : Place) : Option FileNode :=
  if isTop place then some .directory
  else (tree.nodes.find? fun (other, _) => other == place).map Prod.snd

def put (tree : FileTree) (place : Place) (node : FileNode) : FileTree :=
  ⟨(place, node) :: tree.nodes.filter fun (other, _) => other != place⟩

def child (place : Place) (part : String) : Place :=
  if part = "." then place
  else if part = ".." then
    if place = ["/"] then place
    else if isTop place then place ++ [".."]
    else place.dropLast
  else place ++ [part]

def start (path : String) : Place :=
  if Path.isAbsolute path then ["/"] else []

/-- Follow the parts of a path. Every place from which a part leads on has to be a directory. -/
def walk (tree : FileTree) (place : Place) : List String → Except FileError Place
  | [] => .ok place
  | part :: rest =>
    match tree.get? place with
    | none => .error .notFound
    | some (.file _) => .error .notADirectory
    | some .directory => walk tree (child place part) rest

/-- What a path leads to. A slash at the end asks for a directory. -/
def find (tree : FileTree) (path : String) : Except FileError FileNode := do
  if path.isEmpty then .error .notFound
  else
    match tree.get? (← tree.walk (start path) (Path.parts path)) with
    | none => .error .notFound
    | some .directory => .ok .directory
    | some (.file content) =>
      if Path.endsInSlash path then .error .notADirectory else .ok (.file content)

def contains (tree : FileTree) (path : String) : Bool :=
  (tree.find path).isOk

def read (tree : FileTree) (path : String) : Except FileError String :=
  match tree.find path with
  | .error e => .error e
  | .ok .directory => .error .isADirectory
  | .ok (.file .bytes) => .error .notText
  | .ok (.file (.text s)) => .ok s

/-- The place at which a path would have a file written, if its directory is there. -/
def target (tree : FileTree) (path : String) : Except FileError Place := do
  match (Path.parts path).getLast? with
  | none => .error (if path.isEmpty then .notFound else .isADirectory)
  | some name =>
    let parent ← tree.walk (start path) (Path.parts path).dropLast
    match tree.get? parent with
    | none => .error .notFound
    | some (.file _) => .error .notADirectory
    | some .directory =>
      if name = "." || name = ".." || Path.endsInSlash path then .error .isADirectory
      else if tree.get? (parent ++ [name]) = some .directory then .error .isADirectory
      else .ok (parent ++ [name])

/-- Write a file. A write that fails changes nothing. -/
def write (tree : FileTree) (path text : String) : Except FileError FileTree :=
  match tree.target path with
  | .ok place => .ok (tree.put place (.file (.text text)))
  | .error e => .error e

/-- Put something at the place that the parts of a path lead to, making the directories on the
way. -/
def install (tree : FileTree) (place : Place) (node : FileNode) : List String → FileTree
  | [] => tree.put place node
  | part :: rest =>
    let tree := if (tree.get? place).isSome then tree else tree.put place .directory
    install tree (child place part) node rest

def add (tree : FileTree) (path : String) (node : FileNode) : FileTree :=
  tree.install (start path) node (Path.parts path)

end FileTree

end Weave.Command
