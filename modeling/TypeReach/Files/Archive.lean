import TypeReach.Files.SystemError

/-!
# Archives

An archive is a list of entries, which lie in its file one after the other:
a header of fixed length, the name, and the content, stored as it is or packed.
No two entries have the same name.
Whoever keeps an archive open knows where each content lies and reads it from
there.  When something else is written over the file, the bytes in that place
are taken for the content, and its checksum tells whether they are.
-/

namespace TypeReach.Files

/-- How the content of an entry is kept. -/
inductive Packing where
  | stored
  | deflated
  deriving DecidableEq, Repr

/-- An entry of an archive. -/
structure ArchiveEntry where
  name : String
  content : List UInt8
  packing : Packing
  deriving DecidableEq, Repr

namespace ArchiveEntry

/-- The number of bits that the fixed code gives to a byte. -/
def codeLength (byte : UInt8) : Nat := if byte < 144 then 8 else 9

/--
The number of bytes that the content takes.  Packed, it is one block of the
fixed code, which takes ten bits by itself.
-/
def packedLength (entry : ArchiveEntry) : Nat :=
  match entry.packing with
  | .stored => entry.content.length
  | .deflated => (entry.content.foldr (fun byte bits => codeLength byte + bits) 10 + 7) / 8

/-- The number of bytes from the start of an entry to its content. -/
def headLength (entry : ArchiveEntry) : Nat := 30 + entry.name.utf8ByteSize

/--
Unpack what was written over the content.  That is text and not packed data, so
where there is any of it, it does not unpack.
-/
def unpack? (entry : ArchiveEntry) (bytes : List UInt8) : Option (List UInt8) :=
  match entry.packing, bytes with
  | .stored, _ => some bytes
  | .deflated, [] => some []
  | .deflated, _ :: _ => none

/-- Read the content of an entry that starts at a place of a file. -/
def readAt (entry : ArchiveEntry) (start : Nat) (file : List UInt8) :
    Except SystemError (List UInt8) :=
  match entry.unpack? ((file.drop (start + entry.headLength)).take entry.packedLength) with
  | none => .error .unreadablePacking
  | some bytes => if bytes = entry.content then .ok bytes else .error .wrongChecksum

end ArchiveEntry

/-- An archive by its entries in their order. -/
structure Archive where
  entries : List ArchiveEntry
  distinct : (entries.map ArchiveEntry.name).Nodup
  deriving DecidableEq, Repr

namespace Archive

/-- The archive of some entries, unless a name occurs twice among them. -/
def ofEntries? (entries : List ArchiveEntry) : Option Archive :=
  if distinct : (entries.map ArchiveEntry.name).Nodup then some ⟨entries, distinct⟩ else none

def names (archive : Archive) : List String :=
  archive.entries.map ArchiveEntry.name

/-- The contents of the entries in their order. -/
def contents (archive : Archive) : List (List UInt8) :=
  archive.entries.map ArchiveEntry.content

/-- The content of an entry. -/
def content? (archive : Archive) (name : String) : Option (List UInt8) :=
  (archive.entries.find? (·.name = name)).map ArchiveEntry.content

/-- Read an entry among those that start at a place of a file. -/
def readFrom (name : String) (file : List UInt8) :
    Nat → List ArchiveEntry → Except SystemError (Option (List UInt8))
  | _, [] => .ok none
  | start, entry :: rest =>
    if entry.name = name then (entry.readAt start file).map some
    else readFrom name file (start + entry.headLength + entry.packedLength) rest

/-- Read an entry of an archive that is open, from what its file holds now. -/
def readOver (archive : Archive) (file : List UInt8) (name : String) :
    Except SystemError (Option (List UInt8)) :=
  readFrom name file 0 archive.entries

end Archive

end TypeReach.Files
