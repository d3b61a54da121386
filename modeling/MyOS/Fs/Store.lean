import Mathlib.Data.List.AList
import MyOS.Fs.Files

/-! What SimpleFS is for: a store of named files, some of them open. -/

namespace MyOS.Fs

/-- Files by name, and a table of open ones with an offset each. -/
structure Store where
  files : AList fun _ : CString => List UInt8
  opened : FixedArray 8 (Option (CString × Nat))

namespace Store

/-- A store without files. -/
def empty : Store := { files := ∅, opened := .fill none }

/-- The number of files a store has room for. -/
def maxFiles : Nat := 63

/-- Whether there is room for another file. -/
def hasRoom (a : Store) : Bool := decide (a.files.keys.length < maxFiles)

/-- Whether a file is open. -/
def isOpen (a : Store) (name : CString) : Bool :=
  (List.range maxOpenFiles).any fun fd =>
    match a.opened.get fd with
    | none => false
    | some (other, _) => other == name

/-- The content of a file, nothing when there is none. -/
def content (a : Store) (name : CString) : List UInt8 := (a.files.lookup name).getD []

/-- The store in which a file has a content, whether or not it was there before. -/
def put (a : Store) (name : CString) (content : List UInt8) : Store :=
  { a with files := a.files.insert name content }

/-- Make an empty file under a new name. -/
def create (a : Store) (name : CString) : Bool × Store :=
  if validName name && (a.files.lookup name).isNone && a.hasRoom then (true, a.put name [])
  else (false, a)

/-- Take a file away, unless it is open. -/
def delete (a : Store) (name : CString) : Bool × Store :=
  if (a.files.lookup name).isSome && !a.isOpen name then
    (true, { a with files := a.files.erase name })
  else (false, a)

/-- Replace the content of a file, which is made first when there is room for it. -/
def write (a : Store) (name : CString) (content : List UInt8) : Bool × Store :=
  if validName name && decide (content.length ≤ maxFileSize) &&
      ((a.files.lookup name).isSome || a.hasRoom) then (true, a.put name content)
  else (false, a)

/-- Write a file with more bytes behind its content. -/
def append (a : Store) (name : CString) (data : List UInt8) : Bool × Store :=
  a.write name (a.content name ++ data)

/-- What the beginning of a file is. -/
def read (a : Store) (name : CString) (bufferSize : Nat) : FsAnswer :=
  match a.files.lookup name with
  | none => ⟨0, []⟩
  | some content => ⟨1, content.take bufferSize⟩

/-- Open a file at its start, under the first descriptor that is not in use. -/
def open_ (a : Store) (name : CString) : Int × Store :=
  match a.files.lookup name with
  | none => (-1, a)
  | some _ =>
    match (List.range maxOpenFiles).find? fun fd => (a.opened.get fd).isNone with
    | none => (-1, a)
    | some fd => (fd, { a with opened := a.opened.set fd (some (name, 0)) })

/-- The file and the offset of a descriptor. -/
def descriptor (a : Store) (fd : Int) : Option (CString × Nat) :=
  if 0 ≤ fd ∧ fd < maxOpenFiles then a.opened.get fd.toNat else none

/-- The store in which a descriptor has another offset. -/
def move (a : Store) (fd : Int) (name : CString) (offset : Nat) : Store :=
  { a with opened := a.opened.set fd.toNat (some (name, offset)) }

/-- Give a descriptor back. -/
def close (a : Store) (fd : Int) : Bool × Store :=
  match a.descriptor fd with
  | none => (false, a)
  | some _ => (true, { a with opened := a.opened.set fd.toNat none })

/-- Read from the offset of a descriptor on, and move the offset behind what was read. -/
def readFd (a : Store) (fd : Int) (bufferSize : Nat) : FsAnswer × Store :=
  match a.descriptor fd with
  | none => (⟨0, []⟩, a)
  | some (name, offset) =>
    let piece := ((a.content name).drop offset).take bufferSize
    (⟨1, piece⟩, a.move fd name (offset + piece.length))

/-- A content with some bytes put in place from an offset on, behind zeros if it is too short. -/
def overwrite (content : List UInt8) (offset : Nat) (data : List UInt8) : List UInt8 :=
  (content ++ List.replicate (offset - content.length) 0).take offset ++ data ++
    content.drop (offset + data.length)

/-- Write at the offset of a descriptor, and move the offset behind what was written. -/
def writeFd (a : Store) (fd : Int) (data : List UInt8) : Bool × Store :=
  match a.descriptor fd with
  | none => (false, a)
  | some (name, offset) =>
    if offset + data.length > maxFileSize then (false, a)
    else (true, (a.put name (overwrite (a.content name) offset data)).move fd name
      (offset + data.length))

/-- Move the offset of a descriptor, at most to the end of its file. -/
def seek (a : Store) (fd : Int) (offset : Nat) : Bool × Store :=
  match a.descriptor fd with
  | none => (false, a)
  | some (name, _) =>
    if offset > (a.content name).length then (false, a) else (true, a.move fd name offset)

/-- The answer of an operation that only succeeds or fails. -/
def answer (result : Bool × Store) : FsAnswer × Store :=
  (⟨if result.1 then 1 else 0, []⟩, result.2)

/-- One call, as the store answers it. A store has no directories. -/
def step (a : Store) : FsCall → FsAnswer × Store
  | .create name => answer (a.create name)
  | .delete name => answer (a.delete name)
  | .readFile name bufferSize => (a.read name bufferSize, a)
  | .writeFile name data => answer (a.write name data)
  | .appendFile name data => answer (a.append name data)
  | .open_ name => (⟨(a.open_ name).1, []⟩, (a.open_ name).2)
  | .close fd => answer (a.close fd)
  | .readFd fd bufferSize => a.readFd fd bufferSize
  | .writeFd fd data => answer (a.writeFd fd data)
  | .seek fd offset => answer (a.seek fd offset)
  | .makeDir _ | .removeDir _ | .changeDir _ => (⟨0, []⟩, a)

end Store

/-- The calls on files: all but those on directories, with writes no longer than a file. -/
def FsCall.onFiles : FsCall → Bool
  | .makeDir _ | .removeDir _ | .changeDir _ => false
  | .writeFd _ data => decide (data.length ≤ 68608)
  | _ => true

end MyOS.Fs
