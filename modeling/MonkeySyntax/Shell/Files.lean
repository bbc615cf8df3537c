/-! A tree of files given by their paths, as seen from one directory of it. A directory is there
when a file lies below it. What lies outside of that directory is not known: its names are missing,
but going up from it never fails. -/
namespace MonkeySyntax.Shell

inductive ReadFailure where
  | missing | directory | notDirectory | undecodable
  | other (reason : String)
  deriving DecidableEq

def ReadFailure.reason : ReadFailure → String
  | missing => "No such file or directory (os error 2)"
  | directory => "Is a directory (os error 21)"
  | notDirectory => "Not a directory (os error 20)"
  | undecodable => "stream did not contain valid UTF-8"
  | other reason => reason

structure FileTree where
  files : List (List String × ByteArray)

namespace FileTree

inductive Node where
  | file (content : ByteArray)
  | directory (names : List String)
  | outside

/-- The names in the rest of a path, of which the first has begun with `name`. -/
def namesAfter (name : List Char) : List Char → List String
  | [] => [String.ofList name]
  | '/' :: rest => String.ofList name :: namesAfter [] rest
  | c :: rest => namesAfter (name ++ [c]) rest

/-- The pieces of a path between its slashes, empty ones included. -/
def names (path : String) : List String := namesAfter [] path.toList

def isStep (name : String) : Bool := name ≠ "" && name ≠ "."

def ofList (files : List (String × ByteArray)) : FileTree :=
  ⟨files.map fun (path, content) => ((names path).filter isStep, content)⟩

/-- What is at the end of a list of names; of two files there, the last. -/
def node? (tree : FileTree) (path : List String) : Option Node :=
  match tree.files.reverse.find? (·.1 == path) with
  | some (_, content) => some (.file content)
  | none => if tree.files.any (path.isPrefixOf ·.1) then some (.directory path) else none

def walk (tree : FileTree) : Node → List String → Except ReadFailure Node
  | node, [] => .ok node
  | .file _, _ :: _ => .error .notDirectory
  | .outside, name :: rest =>
    if isStep name && name ≠ ".." then .error .missing else tree.walk .outside rest
  | .directory path, name :: rest =>
    if !isStep name then tree.walk (.directory path) rest
    else if name = ".." then
      tree.walk (if path.isEmpty then .outside else .directory path.dropLast) rest
    else match tree.node? (path ++ [name]) with
      | none => .error .missing
      | some node => tree.walk node rest

def read (tree : FileTree) (path : String) : Except ReadFailure ByteArray :=
  match tree.walk (if path.startsWith "/" then .outside else .directory []) (names path) with
  | .ok (.file content) => .ok content
  | .ok _ => .error .directory
  | .error failure => .error failure

end FileTree

end MonkeySyntax.Shell
