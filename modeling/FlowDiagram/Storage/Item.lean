import FlowDiagram.Storage.Location
/-! Trees of directories and files as values. -/

namespace FlowDiagram.Storage

/-- A file or a directory with its entries by name. -/
inductive Item where
  | file (content : ByteArray)
  | directory (entries : List (String × Item))

/-- Sets the entry of a name, in its place if there is one. -/
def setEntry (name : String) (item : Item) : List (String × Item) → List (String × Item)
  | [] => [(name, item)]
  | (n, i) :: rest => if n = name then (name, item) :: rest else (n, i) :: setEntry name item rest

namespace Item

def empty : Item := directory []

/-- What lies at a path. -/
def find? : Item → Path → Option Item
  | i, [] => some i
  | file _, _ :: _ => none
  | directory entries, n :: p => (entries.lookup n).bind (find? · p)

/-- Puts an item at a path, in directories that are made if they are missing. Nothing is put where
a file is in the way. -/
def put : Item → Path → Item → Item
  | _, [], new => new
  | file content, _ :: _, _ => file content
  | directory entries, n :: p, new =>
    directory (setEntry n (((entries.lookup n).getD empty).put p new) entries)

mutual
/-- All files with their paths. -/
def files : Item → List (Path × ByteArray)
  | file content => [([], content)]
  | directory entries => filesOfEntries entries

def filesOfEntries : List (String × Item) → List (Path × ByteArray)
  | [] => []
  | (n, i) :: rest => (files i).map (fun (p, c) => (n :: p, c)) ++ filesOfEntries rest
end

end Item

end FlowDiagram.Storage
