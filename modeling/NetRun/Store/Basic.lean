/-!
# A store of files

Files and directories below one working directory.  A path is followed name by
name: every name but the last must be a directory that exists.  The working
directory, those above it and the root are always there; nothing else outside
is.

Reading, writing and making directories either do what they say or leave a
fault; a fault in reading or writing leaves the store as it was.
-/

namespace NetRun

/-- Why a file or a directory cannot be used. -/
inductive Fault where
  | notFound
  | exists
  | notDirectory
  | isDirectory
  /-- A name or a path has too many bytes. -/
  | nameTooLong
  /-- A path holds the character that ends paths. -/
  | nullInName
  /-- The bytes of a file are no text. -/
  | notText
  /-- Any other refusal of the machine. -/
  | other (text : String)
deriving DecidableEq, Repr

/-- What a fault says. -/
def Fault.message :
    Fault → String
  | .notFound => "No such file or directory (os error 2)"
  | .exists => "File exists (os error 17)"
  | .notDirectory => "Not a directory (os error 20)"
  | .isDirectory => "Is a directory (os error 21)"
  | .nameTooLong => "File name too long (os error 36)"
  | .nullInName => "file name contained an unexpected NUL byte"
  | .notText => "stream did not contain valid UTF-8"
  | .other text => text

/-- What can be found under a name. -/
inductive Item where
  | file (content : ByteArray)
  | directory

/--
Where an item is: the names from the working directory down to it.  Two dots at
the start stand for the directory above, and a slash for the root.
-/
abbrev Location :=
  List String

namespace Location

/-- The root of all directories. -/
def root :
    Location :=
  ["/"]

/-- The working directory, one above it, or the root. -/
def isStanding
    (location : Location) :
    Bool :=
  location.all (· == "..") || location == root

/-- The directory above a location; the root is above itself. -/
def above
    (location : Location) :
    Location :=
  if location == root then root
  else if location.isStanding then location ++ [".."]
  else location.dropLast

/-- The location is in the working directory or further down. -/
def isInside
    (location : Location) :
    Bool :=
  location.head?.all fun name => name != ".." && name != "/"

end Location

/-- The items below the working directory. -/
structure Store where
  items : List (Location × Item)

namespace Store

/-- The store without items. -/
def empty :
    Store :=
  ⟨[]⟩

/-- The item at a location; standing directories are always there. -/
def item?
    (store : Store)
    (location : Location) :
    Option Item :=
  if location.isStanding then some .directory else store.items.lookup location

/-- Put an item at a location, in place of the one that may be there. -/
def put
    (store : Store)
    (location : Location)
    (item : Item) :
    Store :=
  if (store.items.lookup location).isSome then
    ⟨store.items.map fun (other, old) => if other = location then (other, item) else (other, old)⟩
  else ⟨store.items ++ [(location, item)]⟩

/-- The pieces of a path between its slashes. -/
def pieces :
    List Char → List (List Char)
  | [] => [[]]
  | c :: rest =>
    if c = '/' then [] :: pieces rest
    else
      match pieces rest with
      | [] => [[c]]
      | piece :: others => (c :: piece) :: others

/-- The names that a path goes through; empty pieces are none. -/
def names
    (path : String) :
    List String :=
  ((pieces path.toList).map String.ofList).filter (· ≠ "")

/-- The path starts with a slash, so that it starts at the root. -/
def startsInSlash
    (path : String) :
    Bool :=
  path.toList.head? == some '/'

/-- The path ends in a slash, so that it can only lead to a directory. -/
def endsInSlash
    (path : String) :
    Bool :=
  path.toList.getLast? == some '/'

/-- Where a path starts. -/
def start
    (path : String) :
    Location :=
  if startsInSlash path then .root else []

/-- The most bytes that a name may have. -/
def longestName :
    Nat :=
  255

/-- The most bytes that a path may have. -/
def longestPath :
    Nat :=
  4095

/-- A path can be followed at all. -/
def checkPath
    (path : String) :
    Except Fault Unit :=
  if path.toList.contains '\x00' then .error .nullInName
  else if path.isEmpty then .error .notFound
  else if longestPath < path.utf8ByteSize then .error .nameTooLong
  else .ok ()

/-- Go from a directory to a name in it; a dot stays there, and two dots go up. -/
def step
    (store : Store)
    (here : Location)
    (name : String) :
    Except Fault Location :=
  match store.item? here with
  | none => .error .notFound
  | some (.file _) => .error .notDirectory
  | some .directory =>
    if name = "." then .ok here
    else if name = ".." then .ok here.above
    else if longestName < name.utf8ByteSize then .error .nameTooLong
    else .ok (here ++ [name])

/-- Follow names from a location; each but the last must be a directory. -/
def follow
    (store : Store) :
    Location → List String → Except Fault Location
  | here, [] => .ok here
  | here, name :: rest => do
    let next ← store.step here name
    follow store next rest

/-- The location that a path leads to, whether or not there is anything. -/
def locate
    (store : Store)
    (path : String) :
    Except Fault Location := do
  checkPath path
  store.follow (start path) (names path)

/-- The directory that the last name of some names is looked up in. -/
def folder
    (store : Store)
    (here : Location)
    (names : List String) :
    Except Fault Location :=
  store.follow here (names.dropLast ++ ["."])

/-- The bytes of a file. -/
def readBytes
    (store : Store)
    (path : String) :
    Except Fault ByteArray := do
  let location ← store.locate path
  match store.item? location with
  | none => .error .notFound
  | some .directory => .error .isDirectory
  | some (.file content) =>
    if endsInSlash path then .error .notDirectory else .ok content

/-- The text of a file. -/
def readText
    (store : Store)
    (path : String) :
    Except Fault String := do
  let content ← store.readBytes path
  match String.fromUTF8? content with
  | some text => .ok text
  | none => .error .notText

/--
Write a file, in place of the one that may be there.  A path that ends in a slash
is that of a directory, whether or not there is one.
-/
def writeBytes
    (store : Store)
    (path : String)
    (content : ByteArray) :
    Except Fault Store := do
  checkPath path
  if endsInSlash path then
    let _ ← store.folder (start path) (names path)
    .error .isDirectory
  else
    let location ← store.follow (start path) (names path)
    match store.item? location with
    | some .directory => .error .isDirectory
    | _ => .ok (store.put location (.file content))

/-- Write a text file, in place of the one that may be there. -/
def writeText
    (store : Store)
    (path text : String) :
    Except Fault Store :=
  store.writeBytes path text.toUTF8

/-- Make one directory, where nothing may be. -/
def makeDirectory
    (store : Store)
    (here : Location)
    (names : List String) :
    Except Fault Store := do
  let folder ← store.folder here names
  match names.getLast? with
  | none => .error .exists
  | some name =>
    if name = "." ∨ name = ".." then .error .exists
    else
      let location ← store.step folder name
      match store.item? location with
      | none => .ok (store.put location .directory)
      | some _ => .error .exists

/-- Make one directory, unless it is there. -/
def ensureDirectory
    (store : Store)
    (here : Location)
    (names : List String) :
    Except Fault Store :=
  match store.makeDirectory here names with
  | .ok store => .ok store
  | .error fault =>
    match (store.follow here names).toOption.bind store.item? with
    | some .directory => .ok store
    | _ => .error fault

/--
Make one directory, unless it is there.  If the one above it is missing, that is
made first; `reversed` holds the names that lead there, the last one first.
-/
def ensureBelow
    (store : Store)
    (here : Location)
    (names : List String) :
    (reversed : List String) → Except Fault Store
  | [] => store.ensureDirectory here names
  | name :: reversed =>
    match store.ensureDirectory here names with
    | .error .notFound => do
      let store ← ensureBelow store here (name :: reversed).reverse reversed
      store.ensureDirectory here names
    | result => result

/-- The names that matter on a path: a dot does only at the start, and not at the root. -/
def plainNames
    (path : String) :
    List String :=
  match names path with
  | [] => []
  | name :: rest =>
    (if name = "." ∧ startsInSlash path then [] else [name]) ++ rest.filter (· ≠ ".")

/-- Make a directory and those above it, where they are missing. -/
def makeDirectories
    (store : Store)
    (path : String) :
    Except Fault Store :=
  if path.isEmpty then .ok store
  else do
    checkPath path
    store.ensureBelow (start path) (names path) (plainNames path).dropLast.reverse

/-- The files below the working directory with their paths. -/
def files
    (store : Store) :
    List (String × ByteArray) :=
  store.items.filterMap fun (location, item) =>
    match item with
    | .file content =>
      if location.isInside then some ("/".intercalate location, content) else none
    | .directory => none

/-- The files that are new or changed since an earlier store. -/
def changes
    (later earlier : Store) :
    List (String × ByteArray) :=
  later.files.filter fun (path, content) => earlier.files.lookup path != some content

end Store

end NetRun
