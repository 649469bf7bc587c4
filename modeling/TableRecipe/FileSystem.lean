import TableRecipe.Text.Split

/-!
# Files

The files and directories below the working directory.

* `Content` — what a file holds: bytes, which may be text;
* `FileSystem` — files and directories by path;
* `FileFailure` — why the file system refuses;
* `FileSystem.read?`, `FileSystem.write?`, `FileSystem.list?`, `FileSystem.isFile` — access by
  the text of a path;
* `FilePath.extension?` — the ending of a path that tells the format of a file.
-/

namespace TableRecipe

/-- what a file holds -/
structure Content where
  /-- the bytes -/
  bytes : ByteArray
  deriving Inhabited

instance : DecidableEq Content := fun a b =>
  if h : a.bytes.data = b.bytes.data then
    isTrue (congrArg Content.mk (ByteArray.ext h))
  else isFalse fun same => h (congrArg (·.bytes.data) same)

namespace Content

/-- a text as the content of a file -/
def ofText (text : String) : Content := ⟨text.toUTF8⟩

/-- the text that a file holds, if its bytes encode one -/
def text? (content : Content) : Option String := String.fromUTF8? content.bytes

/-- the pieces between line ends, the last one dropped if it is empty; a carriage return before a
line end belongs to it -/
def splitLines (lineEnd carriageReturn : α) [DecidableEq α] (items : List α) : List (List α) :=
  let pieces := items.foldr (fun item pieces =>
    if item = lineEnd then [] :: pieces
    else match pieces with
      | piece :: rest => (item :: piece) :: rest
      | [] => [[item]]) [[]]
  let ended := pieces.dropLast.map fun piece =>
    if piece.getLast? = some carriageReturn then piece.dropLast else piece
  match pieces.getLast? with
  | some (item :: rest) => ended ++ [item :: rest]
  | _ => ended

/-- the lines of a file, `none` for those whose bytes encode no text -/
def lines (content : Content) : List (Option String) :=
  match content.text? with
  | some text => (splitLines '\n' '\r' text.toList).map fun line => some (String.ofList line)
  | none =>
    (splitLines (10 : UInt8) 13 content.bytes.toList).map fun line =>
      String.fromUTF8? ⟨line.toArray⟩

end Content

/-- why the file system refuses -/
inductive FileFailure where
  /-- there is nothing at the path -/
  | notFound
  /-- a part of the path, or the path, should be a directory -/
  | notDirectory
  /-- the path is a directory and should be a file -/
  | isDirectory
  /-- a part of the path has more than 255 bytes, or the path has 4096 -/
  | nameTooLong
  /-- the path holds the character that ends a text for the operating system -/
  | nulCharacter
  /-- the file should hold text -/
  | notText
  deriving DecidableEq, Repr

namespace FileFailure

/-- the wording of a failure -/
def message : FileFailure → String
  | notFound => "No such file or directory (os error 2)"
  | notDirectory => "Not a directory (os error 20)"
  | isDirectory => "Is a directory (os error 21)"
  | nameTooLong => "File name too long (os error 36)"
  | nulCharacter => "file name contained an unexpected NUL byte"
  | notText => "stream did not contain valid UTF-8"

end FileFailure

namespace FilePath

/-- the parts of a path between slashes, without the empty ones and those that stay in place -/
def parts (path : String) : List String :=
  ((Split.on '/' path.toList).map String.ofList).filter fun part => part ≠ "" && part ≠ "."

/-- whether a path ends in a slash, or in a dot that stays in place -/
def endsOpen (path : String) : Bool :=
  match (Split.on '/' path.toList).getLast? with
  | some last => last.isEmpty || last = ['.'] || last = ['.', '.']
  | none => true

/-- whether a path starts at the root -/
def isAbsolute (path : String) : Bool := path.toList.head? = some '/'

/-- the ending of the last part after its last dot; a dot in front does not count -/
def extension? (path : String) : Option String := do
  let name ← (parts path).getLast?
  if name = ".." then none
  else
    let pieces := Split.on '.' name.toList
    let last ← pieces.getLast?
    if pieces.length ≤ 1 || (pieces.length = 2 && pieces.head? = some []) then none
    else some (String.ofList last)

/-- the path of an entry of a directory -/
def join (directory name : String) : String :=
  if directory.isEmpty || directory.toList.getLast? = some '/' then directory ++ name
  else directory ++ "/" ++ name

end FilePath

/-- files and directories below the working directory -/
structure FileSystem where
  /-- the files by their paths -/
  files : List (List String × Content) := []
  /-- the directories but for the working directory -/
  directories : List (List String) := []
  deriving DecidableEq, Inhabited

namespace FileSystem

/-- whether there is a directory at a path -/
def isDirectoryAt (fs : FileSystem) (path : List String) : Bool :=
  path.isEmpty || fs.directories.contains path

/-- what the file at a path holds -/
def file? (fs : FileSystem) (path : List String) : Option Content := fs.files.lookup path

/-- follows the parts of a path from a directory; what lies outside of the working directory is
not there -/
def walk (fs : FileSystem) (place : List String) : List String → Except FileFailure (List String)
  | [] => .ok place
  | part :: rest =>
    if fs.isDirectoryAt place then
      if part = ".." then
        if place.isEmpty then .error .notFound else walk fs place.dropLast rest
      else if 255 < part.utf8ByteSize then .error .nameTooLong
      else
        let next := place ++ [part]
        if fs.isDirectoryAt next || (fs.file? next).isSome then walk fs next rest
        else .error .notFound
    else .error .notDirectory

/-- what no access by path allows -/
def check (path : String) : Except FileFailure Unit :=
  if path.toList.contains (Char.ofNat 0) then .error .nulCharacter
  else if path.isEmpty then .error .notFound
  else if 4096 ≤ path.utf8ByteSize then .error .nameTooLong
  else if FilePath.isAbsolute path then .error .notFound
  else .ok ()

/-- the place that a path leads to -/
def locate (fs : FileSystem) (path : String) : Except FileFailure (List String) := do
  check path
  let place ← fs.walk [] (FilePath.parts path)
  if FilePath.endsOpen path && !fs.isDirectoryAt place then .error .notDirectory
  else .ok place

/-- opens a file or directory to read it; reading a directory then fails -/
def open? (fs : FileSystem) (path : String) : Except FileFailure (Except FileFailure Content) := do
  let place ← fs.locate path
  match fs.file? place with
  | some content => return .ok content
  | none => return .error .isDirectory

/-- what a file holds -/
def read? (fs : FileSystem) (path : String) : Except FileFailure Content := do
  let opened ← fs.open? path
  opened

/-- the text that a file holds -/
def readText? (fs : FileSystem) (path : String) : Except FileFailure String := do
  match (← fs.read? path).text? with
  | some text => return text
  | none => throw .notText

/-- replaces the entry under a path, or adds one at the end -/
def putFile (path : List String) (content : Content) :
    List (List String × Content) → List (List String × Content)
  | [] => [(path, content)]
  | (other, old) :: rest =>
    if other = path then (path, content) :: rest else (other, old) :: putFile path content rest

/-- writes a file, which need not be there; its directory must -/
def write? (fs : FileSystem) (path : String) (content : Content) :
    Except FileFailure FileSystem := do
  check path
  let parts := FilePath.parts path
  let directory ← fs.walk [] parts.dropLast
  match parts.getLast? with
  | none => throw .isDirectory
  | some name =>
    if !fs.isDirectoryAt directory then throw .notDirectory
    if FilePath.endsOpen path then throw .isDirectory
    if 255 < name.utf8ByteSize then throw .nameTooLong
    let place := directory ++ [name]
    if fs.isDirectoryAt place then throw .isDirectory
    return { fs with files := putFile place content fs.files }

/-- the names in a directory, ascending -/
def list? (fs : FileSystem) (path : String) : Except FileFailure (List String) := do
  let place ← fs.locate path
  if !fs.isDirectoryAt place then throw .notDirectory
  let inside := fun (entry : List String) =>
    if entry.dropLast = place then entry.getLast? else none
  let names := fs.files.filterMap (fun entry => inside entry.1) ++ fs.directories.filterMap inside
  return names.mergeSort (fun a b => a ≤ b)

/-- whether a path leads to a file -/
def isFile (fs : FileSystem) (path : String) : Bool :=
  match fs.locate path with
  | .ok place => (fs.file? place).isSome
  | .error _ => false

end FileSystem

end TableRecipe
