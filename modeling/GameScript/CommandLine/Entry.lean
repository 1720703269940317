namespace GameScript

inductive AccessError
  | notFound
  | notFolder
  | isFolder
  | other (message : String)
deriving DecidableEq, Repr

def AccessError.text : AccessError → String
  | notFound => "No such file or directory (os error 2)"
  | notFolder => "Not a directory (os error 20)"
  | isFolder => "Is a directory (os error 21)"
  | other message => message

abbrev Content := Except AccessError String

inductive Entry
  | missing (e : AccessError)
  | file (content : Content)
  | folder (files : List (List String × Content))

def pathParts (path : String) : List String :=
  path.splitOn "/"

namespace Entry

def scriptExtensions : List String := ["gsc", "csc", "gsh"]

def extension? (name : String) : Option String :=
  match (name.splitOn ".").reverse with
  | last :: first :: others =>
    if name = ".." ∨ (others.isEmpty ∧ first.isEmpty) then none else some last
  | _ => none

def isScriptName (name : String) : Bool :=
  match extension? name with
  | some e => scriptExtensions.contains e
  | none => false

def isSkippedFolder (name : String) : Bool :=
  name.toList.head? == some '.' || name == "target"

def fileName? (path : String) : Option String :=
  match ((pathParts path).filter fun part => !part.isEmpty && part != ".").getLast? with
  | some name => if name = ".." then none else some name
  | none => none

def join (folder : String) (parts : List String) : String :=
  let between := if folder.toList.getLast? = some '/' then "" else "/"
  folder ++ between ++ "/".intercalate parts

def isFound (parts : List String) : Bool :=
  match parts.getLast? with
  | some name => isScriptName name && !parts.dropLast.any isSkippedFolder
  | none => false

def before (a b : List String × Content) : Bool :=
  !decide (b.1 < a.1)

def scripts (path : String) : Entry → List (String × Content)
  | missing _ => []
  | file content => if (fileName? path).any isScriptName then [(path, content)] else []
  | folder files =>
    ((files.filter fun f => isFound f.1).mergeSort before).map fun f => (join path f.1, f.2)

end Entry

abbrev FileSet := List (List String × String)

namespace FileSet

def resolve (path : String) : List String :=
  (pathParts path).foldl
    (fun place part =>
      if part.isEmpty || part == "." then place
      else if part == ".." then place.dropLast
      else place ++ [part]) []

def isFile (files : FileSet) (place : List String) : Bool :=
  files.any fun f => f.1 == place

def isFolder (files : FileSet) (place : List String) : Bool :=
  place.isEmpty || files.any fun f => place.isPrefixOf f.1 && place.length < f.1.length

def follow (files : FileSet) : List String → List String → Except AccessError (List String)
  | place, [] => .ok place
  | place, part :: rest =>
    if files.isFile place then .error .notFolder
    else if part.isEmpty || part == "." then follow files place rest
    else if part == ".." then follow files place.dropLast rest
    else
      let next := place ++ [part]
      if files.isFile next || files.isFolder next then follow files next rest else .error .notFound

def entry (files : FileSet) (path : String) : Entry :=
  if path.toList.head? = some '/' then .missing .notFound
  else
    match follow files [] (pathParts path) with
    | .error e => .missing e
    | .ok place =>
      match files.find? fun f => f.1 == place with
      | some f => .file (.ok f.2)
      | none =>
        .folder ((files.filter fun f => place.isPrefixOf f.1).map fun f =>
          (f.1.drop place.length, .ok f.2))

end FileSet

end GameScript
