import Drumline.Text.Size

/-! Files.  A `Host` gives a program its standard input and its files, in a monad of its own;
`Directory` is a working directory held as a value, and `World.host` serves a program from it. -/

namespace Drumline.CommandLine

/-- Why a file cannot be read or written. -/
inductive FileError where
  | notFound
  | notDirectory
  | isDirectory
  | nameTooLong
  | notText
  | other (message : List Char)
  deriving DecidableEq

def FileError.message : FileError → List Char
  | notFound => "No such file or directory (os error 2)".toList
  | notDirectory => "Not a directory (os error 20)".toList
  | isDirectory => "Is a directory (os error 21)".toList
  | nameTooLong => "File name too long (os error 36)".toList
  | notText => "stream did not contain valid UTF-8".toList
  | other message => message

/-- What a program can ask of its surroundings. -/
structure Host (m : Type → Type) where
  readInput : m ByteArray
  readFile : List Char → m (Except FileError ByteArray)
  writeFile : List Char → List Char → m (Except FileError Unit)

def decode (bytes : ByteArray) : Except FileError (List Char) :=
  match String.fromUTF8? bytes with
  | some text => .ok text.toList
  | none => .error .notText

def encode (text : List Char) : ByteArray := (String.ofList text).toUTF8

/-! ### Paths -/

/-- What a path asks of an entry. -/
inductive Aspect where
  /-- The entry itself. -/
  | plain
  /-- The entry, named as a directory by a slash behind it. -/
  | directory
  /-- Something inside the entry. -/
  | inside
  deriving DecidableEq

/-- What a path names, seen from a working directory without directories in it. -/
inductive Target where
  /-- The working directory or one above it. -/
  | directory
  /-- The entry that the first name of the path names, in the working directory or, unless `here`,
  in a directory above it. -/
  | entry (here : Bool) (name : List Char) (aspect : Aspect)
  /-- Nothing, for the path exceeds what a file system takes. -/
  | tooLong
  deriving DecidableEq

def pathLimit : Nat := 4095

def above : List Char := ['.', '.']

/-- What a path names.  Empty parts and parts that are a dot are passed over. -/
def Target.ofPath (path : List Char) : Target :=
  let parts := (path.splitOn '/').filter (!·.isEmpty)
  let names := parts.filter (· != ['.'])
  if pathLimit < Text.byteSize path then .tooLong
  else
    match names.dropWhile (· == above) with
    | [] => .directory
    | name :: others =>
      let here := path.head? != some '/' && names.head? != some above
      let aspect : Aspect :=
        if !others.isEmpty || parts.getLast? != some name then .inside
        else if path.getLast? = some '/' then .directory
        else .plain
      .entry here name aspect

/-! ### Directories -/

structure Directory where
  files : List (List Char × ByteArray)

namespace Directory

def file? (d : Directory) (name : List Char) : Option ByteArray := d.files.lookup name

def put (d : Directory) (name : List Char) (contents : ByteArray) : Directory :=
  ⟨(name, contents) :: d.files.filter (·.1 != name)⟩

/-- The greatest number of bytes in a name. -/
def nameLimit : Nat := 255

/-- The contents of the entry of a name, if there is one.  The directories above the working
directory are taken to be empty. -/
def find (d : Directory) (here : Bool) (name : List Char) :
    Except FileError (Option ByteArray) :=
  if nameLimit < Text.byteSize name then .error .nameTooLong
  else .ok (if here then d.file? name else none)

def read (d : Directory) (path : List Char) : Except FileError ByteArray :=
  match Target.ofPath path with
  | .tooLong => .error .nameTooLong
  | .directory => .error .isDirectory
  | .entry here name aspect => do
    match ← d.find here name with
    | none => .error .notFound
    | some contents => if aspect = .plain then .ok contents else .error .notDirectory

/-- The directory after a text has been written to the file at a path.  A path that names a
directory is refused before the name is looked up, and only the working directory can be written
to. -/
def write (d : Directory) (path text : List Char) : Except FileError Directory :=
  match Target.ofPath path with
  | .tooLong => .error .nameTooLong
  | .directory | .entry _ _ .directory => .error .isDirectory
  | .entry here name .plain => do
    let _ ← d.find here name
    if here then .ok (d.put name (encode text)) else .error .notFound
  | .entry here name .inside => do
    match ← d.find here name with
    | none => .error .notFound
    | some _ => .error .notDirectory

end Directory

/-- Standard input and a working directory. -/
structure World where
  input : ByteArray
  directory : Directory

/-- A host that serves a program from a world. -/
def World.host : Host (StateM World) where
  readInput := do return (← get).input
  readFile path := do return (← get).directory.read path
  writeFile path text := do
    let world ← get
    match world.directory.write path text with
    | .ok directory =>
      set { world with directory }
      return .ok ()
    | .error e => return .error e

end Drumline.CommandLine
