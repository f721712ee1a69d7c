import MeshSecurity.Storage.Memory

/-!
# Stores in a file

The bytes are kept in one file, which is created by the first append and deleted by a removal.
What the file system answers depends on what is found at the path of the file.
-/

namespace MeshSecurity

/-- What is found at the path of the file. -/
inductive FilePlace
  /-- A directory that may hold the file. -/
  | directory
  /-- No directory. -/
  | missingDirectory
  /-- A directory under the name of the file. -/
  | occupied
  /-- A file in place of the directory. -/
  | belowFile
deriving DecidableEq

/-- A file at a place, with its contents if it exists. -/
structure FileStore where
  place : FilePlace
  file : Option (List UInt8)
deriving DecidableEq

namespace FileStore

def fileName : String := "nrl"

/-- The offsets that can be sought in a file. -/
def seekLimit : Nat := 0x8000000000000000

/-- The bytes that can be read, if any can. -/
def contents (s : FileStore) : Option (List UInt8) :=
  if s.place = .directory then s.file else none

/-- Only a directory takes the file. There it is created if need be. -/
def append (data : List UInt8) (s : FileStore) : Except Error Nat × FileStore :=
  match s.place with
  | .directory => (.ok data.length, { s with file := some (s.file.getD [] ++ data) })
  | _ => (.error .recordNotStored, s)

/-- A file or directory that does not exist holds no data. A directory under the name of the file
can be opened but not read. -/
def read (offset n : Nat) (s : FileStore) : Except Error (List UInt8) :=
  match s.place with
  | .directory =>
    match s.file with
    | some bytes =>
      if offset < seekLimit then .ok ((bytes.drop offset).take n) else .error .recordsUnreadable
    | none => .ok []
  | .missingDirectory => .ok []
  | .occupied => if n = 0 ∧ offset < seekLimit then .ok [] else .error .recordsUnreadable
  | .belowFile => .error .recordsUnreadable

/-- Removing what does not exist succeeds. -/
def remove (s : FileStore) : Except Error Unit × FileStore :=
  match s.place with
  | .directory => (.ok (), { s with file := none })
  | .missingDirectory => (.ok (), s)
  | .occupied | .belowFile => (.error .recordNotStored, s)

instance : RecordStore FileStore where
  append := append
  read offset n s := (s.read offset n, s)
  remove := remove

end FileStore

end MeshSecurity
