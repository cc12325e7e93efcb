import Lineage.Text

/-!
# Files

What the program asks of the files around it, and files and directories as a value: what lies in and
below a working directory. A path is a text whose components are divided by `/`. Joining and taking
the parent work on the text alone. In a tree a path is followed component by component, as a file
system does it, so a component may only follow a directory, also if it is `.` or empty. Nothing is
known of the directories around the working directory but that they are there.
-/

namespace Lineage

inductive FileFault where
  | missing
  | notDirectory
  | isDirectory
  | nameTooLong
  | nulInPath
  | notUtf8
  | other (text : String)
  deriving DecidableEq

def FileFault.message : FileFault → String
  | missing => "No such file or directory (os error 2)"
  | notDirectory => "Not a directory (os error 20)"
  | isDirectory => "Is a directory (os error 21)"
  | nameTooLong => "File name too long (os error 36)"
  | nulInPath => "file name contained an unexpected NUL byte"
  | notUtf8 => "stream did not contain valid UTF-8"
  | other text => text

structure Files (m : Type → Type) where
  isFile : (path : String) → m Bool
  read : (path : String) → m (Except FileFault String)

end Lineage

namespace Lineage.Path

def isAbsolute (path : String) : Bool :=
  match path.toList with
  | '/' :: _ => true
  | _ => false

def divider (base : String) : String :=
  match base.toList.getLast? with
  | none => ""
  | some '/' => ""
  | some _ => "/"

/-- `path` as it is meant in the directory `base`. -/
def join (base path : String) : String :=
  if isAbsolute path then path else base ++ divider base ++ path

/-- Drops the separators and the components `.` at the end of a path, but not its root. The path is
reversed. -/
def dropIdle : List Char → List Char
  | '/' :: c :: cs => dropIdle (c :: cs)
  | '.' :: '/' :: cs => if cs.isEmpty then ['/'] else dropIdle cs
  | cs => cs

/-- The directory of what the path names; the root has none. -/
def parent? (path : String) : Option String :=
  match dropIdle path.toList.reverse with
  | [] | ['/'] => none
  | cs => some (String.ofList (dropIdle (cs.dropWhile (· ≠ '/'))).reverse)

example : join "/work" "../i.json" = "/work/../i.json" := by decide
example : join "/work/" "" = "/work/" := by decide
example : parent? "/work//a/./i.json" = some "/work//a" := by decide
example : parent? "/i.json" = some "/" := by decide
example : parent? "i.json" = some "" := by decide

end Lineage.Path

/-! ## Trees of files -/

namespace Lineage.Files

inductive Place where
  | directory
  | file (bytes : Text.Bytes)

structure Tree where
  /-- The text of the working directory's path. -/
  root : String
  /-- Files and directories by the components of their paths from the working directory. -/
  places : List (List String × Place)

namespace Tree

def components (path : String) : List String := Text.split '/' path

/-- The places on the way to a new place and that place, from the directory that `up` leads to; the
last step of `up` comes first. -/
def placesTo (place : Place) (up : List String) : List String → List (List String × Place)
  | [] => [(up.reverse, place)]
  | name :: names =>
    if name = "" ∨ name = "." then placesTo place up names
    else
      let next := if name = ".." then up.tail else name :: up
      (up.reverse, .directory) :: placesTo place next names

/-- The tree with the given files and directories, and the directories on the way to them. Of two
at one place the later one counts. -/
def ofList (root : String) (places : List (String × Place)) : Tree :=
  ⟨root, (places.flatMap fun p => placesTo p.2 [] (components p.1)).reverse⟩

def place? (t : Tree) (way : List String) : Option Place := t.places.lookup way

/-- Where one has come to: a way down from the working directory, with the last step first, or a
directory around it. -/
abbrev Position := Option (List String)

def enter (t : Tree) (here : Position) (name : String) : Except FileFault (Position × Place) :=
  if 255 < name.utf8ByteSize then .error .nameTooLong
  else match here with
    | none => .error .missing
    | some up =>
      match t.place? (name :: up).reverse with
      | some place => .ok (some (name :: up), place)
      | none => .error .missing

def outward : Position → Position
  | some (_ :: up) => some up
  | _ => none

def follow (t : Tree) (here : Position) (place : Place) :
    List String → Except FileFault Place
  | [] => .ok place
  | name :: names =>
    match place with
    | .file _ => .error .notDirectory
    | .directory =>
      if name = "" ∨ name = "." then t.follow here .directory names
      else if name = ".." then t.follow (outward here) .directory names
      else do
        let (here, place) ← t.enter here name
        t.follow here place names

/-- The number of bytes from which on a path is too long. -/
def pathLimit : Nat := 4096

def find (t : Tree) (path : String) : Except FileFault Place :=
  if path.toList.contains '\x00' then .error .nulInPath
  else if pathLimit ≤ path.utf8ByteSize then .error .nameTooLong
  else if t.root.toList.isPrefixOf path.toList then
    t.follow (some []) .directory (components (String.ofList (path.toList.drop t.root.length)))
  else t.follow none .directory (components path)

def isFile (t : Tree) (path : String) : Bool :=
  match t.find path with
  | .ok (.file _) => true
  | _ => false

def read (t : Tree) (path : String) : Except FileFault String := do
  match ← t.find path with
  | .directory => throw .isDirectory
  | .file bytes =>
    match Text.ofUtf8? bytes with
    | some text => return text
    | none => throw .notUtf8

def files (t : Tree) : Files Id where
  isFile path := t.isFile path
  read path := t.read path

end Tree

end Lineage.Files
