import Rv64Board.Cli.Host

/-!
# A host on paper

A host whose files and input are given in advance, and whose reports and output are written down.

* `Folder`: a directory with files in it, known by the text of its path.
* `Transcript`: the files and the input that is left, and what has been reported and printed.
* `Transcript.host`: the services of `Host`, as changes of a transcript.

All input arrives at once. Time passes by the number of times that it is asked for.
-/

namespace Rv64Board.Cli

/-! ## Files -/

/-- A directory with files in it. The path of a file is the path of the directory followed by the
name of the file. -/
structure Folder where
  path : String
  files : List (String × List UInt8)

/-- What a path can lead to. -/
inductive Place
  /-- The directory whose files are known. -/
  | folder
  /-- Any other directory; nothing is known to be in it. -/
  | elsewhere
  | file (content : List UInt8)
  deriving DecidableEq

namespace Folder

/-- The parts of a path between its slashes. -/
def parts : List Char → List (List Char)
  | [] => [[]]
  | c :: cs =>
    if c = '/' then [] :: parts cs
    else
      match parts cs with
      | [] => [[c]]
      | p :: ps => (c :: p) :: ps

/-- The number of bytes that a text takes. -/
def byteCount (cs : List Char) : Nat :=
  cs.foldr (fun c n => c.utf8Size + n) 0

/-- The most bytes that a name can have. -/
def maxName : Nat := 255

/-- The number of bytes from which on a path is too long. -/
def pathLimit : Nat := 4096

/-- A part of a path that stays where it is. -/
def isHere (part : List Char) : Bool :=
  part = [] || part = ['.']

/-- Where a part of a path leads. -/
def enter (f : Folder) (place : Place) (part : List Char) : Except FileError Place :=
  match place with
  | .file _ => .error .notADirectory
  | place =>
    if isHere part then .ok place
    else if part = ['.', '.'] then .ok .elsewhere
    else if maxName < byteCount part then .error .nameTooLong
    else if place = .elsewhere then .error .notFound
    else
      match f.files.find? fun file => file.1.toList == part with
      | some file => .ok (.file file.2)
      | none => .error .notFound

/-- Where the parts of a path lead, one after the other. -/
def walk (f : Folder) : Place → List (List Char) → Except FileError Place
  | place, [] => .ok place
  | place, part :: rest =>
    match f.enter place part with
    | .error e => .error e
    | .ok place => f.walk place rest

/-- Where a path starts, and its parts from there on. The path of the directory starts at the root,
so slashes in front of it change nothing. -/
def locate (f : Folder) (path : List Char) : Place × List (List Char) :=
  let absolute := path.dropWhile (· = '/')
  if f.path.toList.isPrefixOf absolute then
    (.folder, parts (absolute.drop f.path.toList.length))
  else (.elsewhere, parts path)

/-- The path of the device that is always empty and takes everything. -/
def nullDevice : String := "/dev/null"

/-- What is wrong with the text of a path, wherever it leads. -/
def malformed? (path : String) : Option FileError :=
  if path.toList.contains '\x00' then some .nulInName
  else if path.isEmpty then some .notFound
  else if pathLimit ≤ byteCount path.toList then some .nameTooLong
  else none

/-- Reads a file. -/
def read (f : Folder) (path : String) : Except FileError (List UInt8) :=
  match malformed? path with
  | some e => .error e
  | none =>
    if path = nullDevice then .ok []
    else
      let (start, ps) := f.locate path.toList
      match f.walk start ps with
      | .error e => .error e
      | .ok (.file content) => .ok content
      | .ok _ => .error .isADirectory

/-- Checks that a file can be created under a name in a place; slashes may follow the name. -/
def createIn (place : Place) (name : List Char) (slashes : Bool) : Except FileError Unit :=
  match place with
  | .file _ => .error .notADirectory
  | _ =>
    if slashes || isHere name || name = ['.', '.'] then .error .isADirectory
    else if maxName < byteCount name then .error .nameTooLong
    else .ok ()

/-- Checks that a file can be created. -/
def create (f : Folder) (path : String) : Except FileError Unit :=
  match malformed? path with
  | some e => .error e
  | none =>
    if path = nullDevice then .ok ()
    else
      let (start, ps) := f.locate path.toList
      match ps.reverse.dropWhile List.isEmpty with
      | [] => .error .isADirectory
      | name :: parents =>
        match f.walk start parents.reverse with
        | .error e => .error e
        | .ok place => createIn place name (ps.getLast? = some [])

end Folder

/-! ## Transcripts -/

/-- The files and the input of a host, and what has come out. -/
structure Transcript where
  folder : Folder
  /-- The input that has not been read. -/
  input : List Char
  /-- How often the time has been asked for. -/
  elapsed : Nat
  /-- What has been reported, most recent first. -/
  reports : List LogEntry
  /-- What has been printed, most recent first. -/
  printed : List UInt8

namespace Transcript

/-- A transcript before anything has happened. -/
def start (folder : Folder) (input : String) : Transcript :=
  ⟨folder, input.toList, 0, [], []⟩

/-- How often the time is asked for in a second. -/
def ticksPerSecond : Nat := 16

/-- The reports in order. -/
def log (t : Transcript) : List LogEntry :=
  t.reports.reverse

/-- The printed bytes in order. -/
def output (t : Transcript) : List UInt8 :=
  t.printed.reverse

/-- The first line of a text with the character that ends it, and the rest. -/
def splitLine (text : List Char) : List Char × List Char :=
  match text.dropWhile (· ≠ '\n') with
  | [] => (text, [])
  | c :: rest => (text.takeWhile (· ≠ '\n') ++ [c], rest)

/-- Takes the next line of the input. -/
def takeLine (t : Transcript) : Option String × Transcript :=
  if t.input.isEmpty then (none, t)
  else
    let (line, rest) := splitLine t.input
    (some (String.ofList line), { t with input := rest })

/-- Takes all of the input. -/
def takeAll (t : Transcript) : List UInt8 × Transcript :=
  ((String.ofList t.input).toUTF8.data.toList, { t with input := [] })

/-- The services of a host, written down. -/
def host : Host (StateM Transcript) where
  readFile path := fun t => (t.folder.read path, t)
  writeFile path _ := fun t => (t.folder.create path, t)
  report entry := modify fun t => { t with reports := entry :: t.reports }
  print bytes := modify fun t => { t with printed := bytes.reverse ++ t.printed }
  nextLine := takeLine
  received := takeAll
  timeUp seconds := fun t =>
    (ticksPerSecond * seconds < t.elapsed, { t with elapsed := t.elapsed + 1 })

end Transcript

end Rv64Board.Cli
