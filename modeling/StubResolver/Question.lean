/-
Questions: which records of which name are asked for.
-/
import StubResolver.Name

namespace StubResolver

/-- The class of Internet names. -/
def classInternet : UInt16 := 1

/-- A question of a message. -/
structure Question where
  name : Name
  /-- The type of the records asked for. -/
  qtype : UInt16
  /-- The class of the records asked for. -/
  qclass : UInt16
deriving DecidableEq, Repr

namespace Question

instance : Writable Question where
  size question := size question.name + 2 + 2
  write question := write question.name ++ write question.qtype ++ write question.qclass

instance : Readable Question where
  read := do
    let name ← Readable.read
    let qtype ← Readable.read
    let qclass ← Readable.read
    pure ⟨name, qtype, qclass⟩

end Question

end StubResolver
