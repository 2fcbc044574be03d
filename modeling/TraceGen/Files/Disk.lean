import TraceGen.Files.Path
import TraceGen.Text.Utf8

/-!
# Files and folders

An `Item` is a file with its content or a folder with its entries in the order of their listing. A
`Disk` is a tree of folders with a place from which relative paths start. Every action that changes
the disk gives the disk back also where it fails, because what it did before stays done.

`Item.lookup?_of_set?` says that an item is found where it was put, and `Item.entry?_putEntry_of_ne`
that the entries beside it stay.
-/

namespace TraceGen

/-- A file or a folder. -/
inductive Item where
  | file (content : Bytes)
  | folder (entries : List (String × Item))

namespace Item

/-- A folder without entries. -/
def emptyFolder : Item := .folder []

/-- Whether an item is a folder. -/
def isFolder : Item → Bool
  | .folder _ => true
  | .file _ => false

/-- The entry with a name. -/
def entry? (name : String) : List (String × Item) → Option Item
  | [] => none
  | (n, item) :: es => if n = name then some item else entry? name es

/-- Replaces the entry with a name, or adds it at the end. -/
def putEntry (name : String) (item : Item) : List (String × Item) → List (String × Item)
  | [] => [(name, item)]
  | (n, old) :: es => if n = name then (n, item) :: es else (n, old) :: putEntry name item es

/-- The item at a place below. -/
def lookup? : Item → List String → Option Item
  | item, [] => some item
  | .file _, _ :: _ => none
  | .folder es, name :: place =>
    match entry? name es with
    | none => none
    | some child => child.lookup? place

/-- Puts the item `new` at a place below; the folders above it must be there. -/
def set? (new : Item) : Item → List String → Option Item
  | _, [] => some new
  | .file _, _ :: _ => none
  | .folder es, [name] => some (.folder (putEntry name new es))
  | .folder es, name :: piece :: place =>
    match entry? name es with
    | none => none
    | some child =>
      match set? new child (piece :: place) with
      | none => none
      | some child => some (.folder (putEntry name child es))

/-- Drops the entry with a name. -/
def dropEntry (name : String) : List (String × Item) → List (String × Item)
  | [] => []
  | (n, item) :: es => if n = name then es else (n, item) :: dropEntry name es

/-- Drops the item at a place below; without a place above it nothing is dropped. -/
def drop (item : Item) : List String → Item
  | [] => item
  | name :: place =>
    match item with
    | .file content => .file content
    | .folder es =>
      match place, entry? name es with
      | [], _ => .folder (dropEntry name es)
      | _ :: _, none => .folder es
      | _ :: _, some child => .folder (putEntry name (child.drop place) es)

/-- The entry that was put is found. -/
theorem entry?_putEntry (name : String) (item : Item) (es : List (String × Item)) :
    entry? name (putEntry name item es) = some item := by
  induction es with
  | nil => simp [putEntry, entry?]
  | cons e es ih =>
    obtain ⟨n, old⟩ := e
    by_cases h : n = name <;> simp [putEntry, entry?, h, ih]

/-- The other entries stay. -/
theorem entry?_putEntry_of_ne {name other : String} (h : name ≠ other) (item : Item)
    (es : List (String × Item)) : entry? other (putEntry name item es) = entry? other es := by
  induction es with
  | nil => simp [putEntry, entry?, h]
  | cons e es ih =>
    obtain ⟨n, old⟩ := e
    by_cases hn : n = name
    · subst hn
      simp [putEntry, entry?, h]
    · simp only [putEntry, hn, if_false, entry?, ih]

/-- An item is found where it was put. -/
theorem lookup?_of_set? {new item result : Item} {place : List String}
    (h : set? new item place = some result) : result.lookup? place = some new := by
  fun_induction set? new item place generalizing result with
  | case1 item =>
    cases h
    cases new <;> rfl
  | case2 => cases h
  | case3 es name =>
    cases h
    cases new <;> simp [lookup?, entry?_putEntry]
  | case4 => simp_all
  | case5 => simp_all
  | case6 es name piece place child hentry child' hchild ih =>
    simp only [Option.some.injEq] at h
    subst h
    simp [lookup?, entry?_putEntry, ih hchild]

end Item

/-- The files and folders that a program sees. -/
structure Disk where
  /-- The folder that holds everything. -/
  root : Item
  /-- The place from which relative paths start. -/
  here : List String

namespace Disk

/-- The disk with one folder in which relative paths start. -/
def empty : Disk := ⟨.emptyFolder, []⟩

/-- Follows the pieces of a path from a place. All but the last must be folders; a piece that is
empty, one dot or two dots stays or goes back and needs a folder to do so. -/
def walk? (root : Item) : List String → List String → Option (List String)
  | place, [] => some place
  | place, piece :: pieces =>
    if ((root.lookup? place).any Item.isFolder) = false then none
    else if piece = "" ∨ piece = "." then walk? root place pieces
    else if piece = ".." then walk? root place.dropLast pieces
    else if Path.maxNameBytes < piece.utf8ByteSize then none
    else walk? root (place ++ [piece]) pieces

/-- The place that a path names. The item itself need not be there, but the folder around it. -/
def place? (d : Disk) (p : Path) : Option (List String) :=
  if Path.isUsable p then
    walk? d.root (if Path.isAbsolute p then [] else d.here) (Path.pieces p)
  else none

/-- The item that a path names. -/
def item? (d : Disk) (p : Path) : Option Item :=
  (d.place? p).bind d.root.lookup?

/-- Whether a path names a folder. -/
def hasFolder (d : Disk) (p : Path) : Bool :=
  (d.item? p).any Item.isFolder

/-- Whether a path names a file. -/
def hasFile (d : Disk) (p : Path) : Bool :=
  (d.item? p).any (!·.isFolder)

/-- The content of the file that a path names. -/
def read? (d : Disk) (p : Path) : Option Bytes :=
  match d.item? p with
  | some (.file content) => some content
  | _ => none

/-- The content of the file that a path names, if it is a text. -/
def readText? (d : Disk) (p : Path) : Option String :=
  (d.read? p).bind Text.decode?

/-- The place of the device that takes no bytes because it always counts as full. -/
def fullDevice : List String := ["dev", "full"]

/-- How many bytes the file that a path names can hold, if there is a limit. -/
def room? (d : Disk) (p : Path) : Option Nat :=
  if d.place? p = some fullDevice then some 0 else none

/-- The size that a folder is reported to have. -/
def folderSize : Nat := 4096

/-- The size in bytes of what a path names. -/
def size? (d : Disk) (p : Path) : Option Nat :=
  match d.item? p with
  | some (.file content) => some content.length
  | some (.folder _) => some folderSize
  | none => none

/-- Puts an item at a place; nothing happens unless the folder around it is there. -/
def put (d : Disk) (place : List String) (item : Item) : Disk :=
  match Item.set? item d.root place with
  | some root => { d with root := root }
  | none => d

/-- Creates or overwrites the file that a path names; `none` if that cannot be done. -/
def write? (d : Disk) (p : Path) (content : Bytes) : Option Disk :=
  match d.place? p with
  | none => none
  | some place =>
    -- A path that ends in a slash or a dot has led into a folder or has failed before.
    if (d.root.lookup? place).any Item.isFolder then none
    else some (d.put place (.file content))

/-- Creates the folder that a path names, in a folder that is there; `none` if something has the
name. Slashes at the end of the path do not count. -/
def addFolder? (d : Disk) (p : Path) : Option Disk :=
  match d.place? (Path.withoutSlashes p) with
  | none => none
  | some place =>
    if (d.root.lookup? place).isSome then none else some (d.put place .emptyFolder)

/-- Creates the folder that a path names and those above it, and says whether it is there then. -/
def addFolders : Nat → Path → Disk → Bool × Disk
  | 0, _, d => (false, d)
  | fuel + 1, p, d =>
    if p.isEmpty then (true, d)
    else match d.addFolder? p with
    | some d => (true, d)
    | none =>
      if d.hasFolder p then (true, d)
      else if !Path.isUsable p then (false, d)
      else match Path.parent? p with
      | none => (false, d)
      | some parent =>
        let (made, d) := addFolders fuel parent d
        if !made then (false, d)
        else match d.addFolder? p with
        | some d => (true, d)
        | none => (d.hasFolder p, d)

/-- Creates the folder that a path names and those above it. Each step drops a name, so the length
of the path is fuel enough. -/
def makeFolders (d : Disk) (p : Path) : Bool × Disk :=
  addFolders (p.length + 1) p d

/-- Removes what a path names. -/
def remove (d : Disk) (p : Path) : Disk :=
  match d.place? p with
  | none => d
  | some place => { d with root := d.root.drop place }

/-- Creates or overwrites the file that a path names, and before it the folders above. -/
def writeDeep (d : Disk) (p : Path) (content : Bytes) : Bool × Disk :=
  let (made, d) := match Path.parent? p with
    | none => (true, d)
    | some parent => d.makeFolders parent
  if !made then (false, d)
  else match d.write? p content with
  | some d => (true, d)
  | none => (false, d)

end Disk

end TraceGen
