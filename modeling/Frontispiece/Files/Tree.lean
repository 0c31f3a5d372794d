import Frontispiece.Files.Route

/-!
# File trees

A `FileTree` is a file system as a program sees it: files with their bytes, folders, and devices that
swallow what is written to them.  A path is read from the folder that the program stands in, or from
the root; it may lead anywhere in the tree.

* `locate` follows a path to a `Place`: a folder, a file, a device, or a name that is free.
* `read`, `readText`, `write`, `createFolders` and `copy` are the operations, each with the faults
  of an operating system of the POSIX kind.
-/

set_option autoImplicit false

namespace Frontispiece
namespace Files

/-- Why a file operation fails. -/
inductive Fault where
  | notFound
  | alreadyThere
  | notDirectory
  | isDirectory
  | tooManyLinks
  | notRegular
  | notText
  deriving DecidableEq, Repr

/-- The text of a fault. -/
def Fault.message : Fault → String
  | .notFound => "No such file or directory (os error 2)"
  | .alreadyThere => "File exists (os error 17)"
  | .notDirectory => "Not a directory (os error 20)"
  | .isDirectory => "Is a directory (os error 21)"
  | .tooManyLinks => "Too many levels of symbolic links (os error 40)"
  | .notRegular => "the source path is neither a regular file nor a symlink to a regular file"
  | .notText => "stream did not contain valid UTF-8"

/-- What is at a place.  A sink is a device that takes whatever is written and holds nothing. -/
inductive Entry where
  | folder
  | file (content : ByteArray)
  | sink

/-- Files are the same when their bytes are. -/
instance : DecidableEq Entry
  | .folder, .folder | .sink, .sink => isTrue rfl
  | .file content, .file other =>
    match ByteArray.instDecidableEq content other with
    | isTrue h => isTrue (congrArg Entry.file h)
    | isFalse h => isFalse fun heq => h (Entry.file.inj heq)
  | .folder, .file _ | .folder, .sink | .file _, .folder | .file _, .sink | .sink, .folder
  | .sink, .file _ => isFalse (fun h => by cases h)

/-- What is at the places of a file system.  The folder of every entry is an entry itself, or one of
those around the current folder. -/
structure FileTree where
  ground : Ground := {}
  entries : List (List String × Entry)
  deriving DecidableEq

/-- Where a path leads.  `slash` tells whether it ends in a slash, which only fits a folder. -/
inductive Place where
  | folder (place : List String)
  | file (place : List String) (content : ByteArray) (slash : Bool)
  | sink (place : List String) (slash : Bool)
  | free (place : List String) (slash : Bool)

namespace FileTree

/-- A current folder with nothing in it, next to the device that every system has. -/
def empty : FileTree where
  ground := { home := ["work"] }
  entries := [(["", "dev"], .folder), (["", "dev", "null"], .sink)]

/-- What is at a place.  The current folder is there, with all folders around it. -/
def find? (t : FileTree) (place : List String) : Option Entry :=
  if t.ground.isAround place then some .folder
  else (t.entries.find? fun entry => entry.1 == place).map Prod.snd

/-- Whether there is a folder at a place. -/
def hasFolder (t : FileTree) (place : List String) : Bool :=
  t.find? place == some .folder

/-- What a path that ends at a place leads to. -/
def placeAt (t : FileTree) (place : List String) (slash : Bool) : Place :=
  match t.find? place with
  | some .folder => .folder place
  | some (.file content) => .file place content slash
  | some .sink => .sink place slash
  | none => .free place slash

/-- Where a path leads.  All that it leads through must be folders. -/
def locate (t : FileTree) (path : String) : Except Fault Place :=
  if path.isEmpty then .error .notFound
  else
    let route := t.ground.route path
    match route.through.find? (!t.hasFolder ·) with
    | some place => .error (if (t.find? place).isNone then .notFound else .notDirectory)
    | none =>
      match route.goal with
      | none => .error .tooManyLinks
      | some place => .ok (t.placeAt place (endsInSlash path))

/-- Whether a path leads to a folder. -/
def isFolder (t : FileTree) (path : String) : Bool :=
  match t.locate path with
  | .ok (.folder _) => true
  | _ => false

/-- Whether a path leads to a file. -/
def isFile (t : FileTree) (path : String) : Bool :=
  match t.locate path with
  | .ok (.file _ _ slash) => !slash
  | _ => false

/-- The entry at a place set. -/
def put (t : FileTree) (place : List String) (entry : Entry) : FileTree :=
  { t with entries := t.entries.filter (fun e => e.1 != place) ++ [(place, entry)] }

/-- The file at a place filled with bytes.  A device stays what it is. -/
def fill (t : FileTree) (place : List String) (content : ByteArray) : FileTree :=
  if t.find? place = some .sink then t else t.put place (.file content)

/-- The bytes that a path leads to; a device has none. -/
def read (t : FileTree) (path : String) : Except Fault ByteArray := do
  match ← t.locate path with
  | .folder _ => .error .isDirectory
  | .file _ content slash => if slash then .error .notDirectory else .ok content
  | .sink _ slash => if slash then .error .notDirectory else .ok ByteArray.empty
  | .free .. => .error .notFound

/-- The text of a file. -/
def readText (t : FileTree) (path : String) : Except Fault String := do
  match String.fromUTF8? (← t.read path) with
  | some text => .ok text
  | none => .error .notText

/-- The place at which a path is written to. -/
def target (t : FileTree) (path : String) : Except Fault (List String) := do
  match ← t.locate path with
  | .folder _ => .error .isDirectory
  | .file place _ slash => if slash then .error .notDirectory else .ok place
  | .sink place slash => if slash then .error .notDirectory else .ok place
  | .free place slash => if slash then .error .isDirectory else .ok place

/-- The tree with bytes written to a path. -/
def write (t : FileTree) (path : String) (content : ByteArray) : Except Fault FileTree := do
  let place ← t.target path
  .ok (t.fill place content)

/-- The bytes of a file that is to be copied, which must be no device. -/
def source (t : FileTree) (path : String) : Except Fault ByteArray := do
  match ← t.locate path with
  | .folder _ => .error .notRegular
  | .file _ content slash => if slash then .error .notDirectory else .ok content
  | .sink _ slash => .error (if slash then .notDirectory else .notRegular)
  | .free .. => .error .notFound

/-- The tree with a file copied.  The target is emptied before the source is read, so that a file
copied to itself is empty. -/
def copy (t : FileTree) (source path : String) : Except Fault FileTree := do
  let _ ← t.source source
  let place ← t.target path
  let t := t.fill place ByteArray.empty
  let content ← t.source source
  .ok (t.fill place content)

/-- Whether a path names a link itself, and not what it leads to. -/
def isLink (t : FileTree) (path : String) : Bool :=
  let route := t.ground.routeToLast path
  match route.goal with
  | some folder => (route.through ++ [folder]).all t.hasFolder && t.ground.namesLink folder path
  | none => false

/-- The tree with a folder made in an existing one.  A link that leads nowhere is in the way. -/
def createFolder (t : FileTree) (path : String) : Except Fault FileTree :=
  if t.isLink path then .error .alreadyThere
  else do
    match ← t.locate path with
    | .free place _ => .ok (t.put place .folder)
    | _ => .error .alreadyThere

/-- The tree with a folder and all folders around it made, as far as they are missing, and the
fault that stopped this, which comes after the folders before it were made.  No more folders are
made than the fuel. -/
def createFoldersWithin : Nat → FileTree → String → Except Fault Unit × FileTree
  | 0, t, _ => (.error .notFound, t)
  | fuel + 1, t, path =>
    let ended (t : FileTree) (fault : Fault) : Except Fault Unit × FileTree :=
      (if t.isFolder path then .ok () else .error fault, t)
    if path.isEmpty then (.ok (), t)
    else
      match t.createFolder path with
      | .ok t => (.ok (), t)
      | .error .notFound =>
        match parent? path with
        | none => (.error .notFound, t)
        | some parent =>
          match createFoldersWithin fuel t parent with
          | (.error fault, t) => (.error fault, t)
          | (.ok (), t) =>
            match t.createFolder path with
            | .ok t => (.ok (), t)
            | .error fault => ended t fault
      | .error fault => ended t fault

/-- The tree with a folder and all folders around it made, as far as they are missing, and the
fault that stopped this. -/
def createFolders (t : FileTree) (path : String) : Except Fault Unit × FileTree :=
  createFoldersWithin (path.length + 1) t path

/-- The folders that make up a path of components, shortest first. -/
def ancestors (place : List String) : List (List String) :=
  (List.range place.length).map place.take |>.filter (!·.isEmpty)

/-- The tree with an entry and the folders around it put in, whatever was there. -/
def plant (t : FileTree) (place : List String) (entry : Entry) : FileTree :=
  let t := (ancestors place).foldl
    (fun t folder => if (t.find? folder).isSome then t else t.put folder .folder) t
  if entry = .folder && (t.find? place).isSome then t else t.put place entry

/-- A tree from paths below the current folder and bytes; a path that ends in a slash is a
folder. -/
def ofList (files : List (String × ByteArray)) : FileTree :=
  files.foldl
    (fun t (path, content) =>
      let place := (components path).filter fun c => !c.isEmpty && c != "."
      t.plant place (if endsInSlash path then .folder else .file content))
    empty

/-- The files and folders below a folder, with their places; a file with its bytes. -/
def below (t : FileTree) (path : String) : List (List String × Option ByteArray) :=
  match t.locate path with
  | .ok (.folder place) =>
    let isBelow (other : List String) : Bool :=
      (t.ground.absolute place).isPrefixOf (t.ground.absolute other) && other != place
    t.entries.filterMap fun (other, entry) =>
      match entry with
      | .folder => if isBelow other then some (other, none) else none
      | .file content => if isBelow other then some (other, some content) else none
      | .sink => none
  | _ => []

end FileTree
end Files
end Frontispiece
