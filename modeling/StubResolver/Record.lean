/-
Resource records, the entries of the answer section.

The data of a record stands behind its length.  A record that was read also knows where
in the message its data begins, since names within the data may be continued anywhere
before it.
-/
import StubResolver.Name

namespace StubResolver

/-- A resource record. -/
structure Record where
  name : Name
  rtype : UInt16
  rclass : UInt16
  /-- For how many seconds the record may be kept. -/
  ttl : UInt32
  data : Bytes
deriving DecidableEq, Repr

/-- A resource record within a message. -/
structure PlacedRecord extends Record where
  /-- The offset of the data in the message. -/
  dataOffset : Nat
deriving DecidableEq, Repr

namespace Record

/-- Puts the data of a record behind its length, if the length fits into its field. -/
def writeData (data : Bytes) : Writer :=
  if UInt16.size ≤ data.length then .fail (.recordDataTooLong data.length)
  else .put (Bytes.toBigEndian 2 data.length ++ data)

instance : Writable Record where
  size record := size record.name + 2 + 2 + 4 + (2 + record.data.length)
  write record :=
    write record.name ++ write record.rtype ++ write record.rclass ++ write record.ttl ++
    writeData record.data

end Record

namespace PlacedRecord

instance : Readable PlacedRecord where
  read := do
    let name ← Readable.read
    let rtype ← Readable.read
    let rclass ← Readable.read
    let ttl ← Readable.read
    let length ← Reader.bigEndian 2
    let dataOffset ← Reader.position
    let data ← Reader.take length
    pure ⟨⟨name, rtype, rclass, ttl, data⟩, dataOffset⟩

end PlacedRecord

end StubResolver
