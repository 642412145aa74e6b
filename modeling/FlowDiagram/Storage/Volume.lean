import FlowDiagram.Storage.FileSystem
import FlowDiagram.Storage.Item
/-! A tree of files with a current directory, and the access to it. -/

namespace FlowDiagram.Storage

/-- How many bytes a system takes for a single name and for a whole location as it is written. -/
structure Bounds where
  name : Nat
  text : Nat

def Bounds.usual : Bounds := ⟨255, 4095⟩

structure Volume where
  top : Item
  /-- The directory that ways start from unless they start from the top. -/
  current : Path
  /-- Without bounds all names are taken. -/
  bounds : Option Bounds

namespace Volume

/-- The files in and below the current directory. -/
def files (v : Volume) : List (Path × ByteArray) :=
  match v.top.find? v.current with
  | some i => i.files
  | none => []

/-- Whether a location is taken as it is written, before anything is looked for. -/
def accept (v : Volume) (l : Location) : Except Error Unit :=
  match v.bounds with
  | none => .ok ()
  | some b =>
    if l.text.toList.contains '\x00' then .error .nullInName
    else if b.text < l.text.utf8ByteSize then .error .nameTooLong
    else .ok ()

/-! Following a way -/

/-- The directories on a walk down from the top, the innermost first, each with its name. -/
abbrev Trail := List (String × Item)

/-- The path of a name in the directory that a trail leads to. -/
def Trail.path (t : Trail) (name : String) : Path := (name :: t.map (·.1)).reverse

/-- What lies under a name in the directory that a trail leads to. -/
def look (v : Volume) (t : Trail) (name : String) : Except Error (Option Item) :=
  if v.bounds.any fun b => b.name < name.utf8ByteSize then .error .nameTooLong
  else
    let directory := match t with
      | [] => v.top
      | (_, i) :: _ => i
    .ok (directory.find? [name])

/-- Goes on into the directory of a name. The name of two dots leads back; the top leads back to
itself. -/
def enter (v : Volume) (t : Trail) (name : String) : Except Error Trail :=
  if name = ".." then .ok t.tail
  else do
    match ← v.look t name with
    | some (.directory entries) => return (name, .directory entries) :: t
    | some (.file _) => .error .notDirectory
    | none => .error .notFound

/-- The trail to the directory that a way leads to. -/
def follow (v : Volume) (r : Route) : Except Error Trail :=
  ((if r.fromTop then [] else v.current) ++ r.names).foldlM v.enter []

/-- The last name of a way, under which there may be nothing yet, and the trail to its directory:
`none` if the way ends at a directory without a name. An empty way leads nowhere. -/
def place (v : Volume) (r : Route) : Except Error (Option (Trail × String)) :=
  match r.names.getLast? with
  | none => if r.fromTop then .ok none else .error .notFound
  | some name => do
    let t ← v.follow r.parent
    return if name = ".." then none else some (t, name)

/-- The place of the file that a location means. One that ends with a dot means a directory. -/
def filePlace (v : Volume) (l : Location) : Except Error (Option (Trail × String)) := do
  v.accept l
  if l.ending = .dot then (v.follow l.route).map fun _ => none else v.place l.route

/-! Files -/

def read (v : Volume) (l : Location) : Except Error ByteArray := do
  match ← v.filePlace l with
  | none => .error .isDirectory
  | some (t, name) =>
    match ← v.look t name with
    | some (.file content) => if l.ending = .slash then .error .notDirectory else .ok content
    | some (.directory _) => .error .isDirectory
    | none => .error .notFound

/-- Writes a file into a directory that exists. After a slash there can be no file, whatever lies
there. -/
def write (v : Volume) (l : Location) (content : ByteArray) : Except Error Volume := do
  match ← v.filePlace l with
  | none => .error .isDirectory
  | some (t, name) =>
    if l.ending = .slash then .error .isDirectory
    else
      match ← v.look t name with
      | some (.directory _) => .error .isDirectory
      | _ => .ok { v with top := v.top.put (t.path name) (.file content) }

/-! Directories -/

/-- Makes a directory in one that exists. -/
def makeDirectory (v : Volume) (r : Route) : Except Error Volume := do
  match ← v.place r with
  | none => .error .alreadyExists
  | some (t, name) =>
    if (← v.look t name).isSome then .error .alreadyExists
    else .ok { v with top := v.top.put (t.path name) .empty }

/-- Makes a directory in one that exists, unless it exists itself. -/
def ensureDirectory (v : Volume) (r : Route) : Except Error Volume :=
  match v.makeDirectory r, v.follow r with
  | .error .alreadyExists, .ok _ => .ok v
  | outcome, _ => outcome

/-- A step that may fail, and then leaves all as it is. -/
def step (f : Volume → Except Error Volume) : StateM Volume (Except Error Unit) := fun v =>
  match f v with
  | .ok w => (.ok (), w)
  | .error e => (.error e, v)

/-- Makes the directories of a way whose names are reversed: outwards to the first one that can be
made or exists, and back. -/
def makeDirectories (fromTop : Bool) : List String → StateM Volume (Except Error Unit)
  | [] => return .ok ()
  | name :: outer => do
    let route : Route := ⟨fromTop, (name :: outer).reverse⟩
    match ← step (·.ensureDirectory route) with
    | .error .notFound =>
      match ← makeDirectories fromTop outer with
      | .ok () => step (·.ensureDirectory route)
      | .error e => return .error e
    | outcome => return outcome

end Volume

instance : FileSystem (StateM Volume) where
  readText l := fun v =>
    (do
      match String.fromUTF8? (← v.read l) with
      | some s => return s
      | none => .error .invalidData, v)
  makeDirectories l := do
    match (← get).accept l with
    | .ok () => Volume.makeDirectories l.route.fromTop l.route.names.reverse
    | .error e => return .error e
  writeText l s := Volume.step (·.write l s.toUTF8)

end FlowDiagram.Storage
