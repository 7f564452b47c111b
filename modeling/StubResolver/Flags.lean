/-
The flags of a message: sixteen bits between its identifier and its counts.

From the most significant bit on, these are the kind of message, four bits of operation,
the four flags "authoritative", "truncated", "recursion desired" and "recursion
available", three reserved bits and four bits of response code.  `ofWord` takes the
sixteen bits apart and `word` puts them together; both are plain positional arithmetic,
and nothing is lost either way.
-/
import StubResolver.Code
import StubResolver.Reader
import StubResolver.Writer

namespace StubResolver

/-- Whether a message asks or answers. -/
inductive MessageKind where
  | query
  | reply
deriving DecidableEq, Repr

/-- The word for a kind of message. -/
def MessageKind.name : MessageKind → String
  | query => "Query"
  | reply => "Reply"

/-- The flags of a message. -/
structure Flags where
  kind : MessageKind
  opcode : Fin 16
  authoritative : Bool
  truncated : Bool
  recursionDesired : Bool
  recursionAvailable : Bool
  reserved : Fin 8
  responseCode : Fin 16
deriving DecidableEq, Repr

namespace Flags

/-- The flags of a message for which nothing is set. -/
def clear : Flags := ⟨.query, 0, false, false, false, false, 0, 0⟩

/-- The sixteen bits taken apart. -/
def ofWord (word : UInt16) : Flags where
  kind := if word.toNat / 32768 % 2 = 1 then .reply else .query
  opcode := Fin.ofNat 16 (word.toNat / 2048)
  authoritative := word.toNat / 1024 % 2 = 1
  truncated := word.toNat / 512 % 2 = 1
  recursionDesired := word.toNat / 256 % 2 = 1
  recursionAvailable := word.toNat / 128 % 2 = 1
  reserved := Fin.ofNat 8 (word.toNat / 16)
  responseCode := Fin.ofNat 16 word.toNat

/-- The sixteen bits put together. -/
def word (flags : Flags) : UInt16 :=
  UInt16.ofNat <|
    (if flags.kind = .reply then 32768 else 0) +
    flags.opcode.val * 2048 +
    flags.authoritative.toNat * 1024 +
    flags.truncated.toNat * 512 +
    flags.recursionDesired.toNat * 256 +
    flags.recursionAvailable.toNat * 128 +
    flags.reserved.val * 16 +
    flags.responseCode.val

/-- The operation, if its number has a name. -/
def opcode? (flags : Flags) : Except InvalidCode Opcode :=
  Opcode.ofCode flags.opcode.val

/-- The response code, if its number has a name. -/
def responseCode? (flags : Flags) : Except InvalidCode ResponseCode :=
  ResponseCode.ofCode flags.responseCode.val

/-! ## Setting single flags -/

/-- A new value for one of the flags. -/
inductive Setting where
  | kind (kind : MessageKind)
  | authoritative (on : Bool)
  | truncated (on : Bool)
  | recursionDesired (on : Bool)
  | recursionAvailable (on : Bool)
  | responseCode (code : ResponseCode)
deriving DecidableEq, Repr

/-- The flags with one of them set anew. -/
def set (flags : Flags) : Setting → Flags
  | .kind kind => { flags with kind := kind }
  | .authoritative on => { flags with authoritative := on }
  | .truncated on => { flags with truncated := on }
  | .recursionDesired on => { flags with recursionDesired := on }
  | .recursionAvailable on => { flags with recursionAvailable := on }
  | .responseCode code => { flags with responseCode := ⟨code.code, code.code_lt⟩ }

/-! ## Text and wire form -/

/-- The word for a code, or a note that its number has none. -/
def codeText {α : Type} (name : α → String) : Except InvalidCode α → String
  | .ok code => name code
  | .error invalid => s!"InvalidCode({invalid.code})"

/-- The flags that are set, between the kind and the operation of the message and its
response code. -/
def describe (flags : Flags) : String :=
  let marks :=
    (if flags.authoritative then ["\"authoritative\""] else []) ++
    (if flags.truncated then ["\"truncated\""] else []) ++
    (if flags.recursionDesired then ["\"recursive\""] else []) ++
    (if flags.recursionAvailable then ["\"recursion available\""] else [])
  let entries :=
    [flags.kind.name, codeText Opcode.name flags.opcode?] ++ marks ++
    [codeText ResponseCode.name flags.responseCode?]
  "[" ++ ", ".intercalate entries ++ "]"

instance : Writable Flags where
  size _ := 2
  write flags := write flags.word

instance : Readable Flags where
  read := do pure (ofWord (← Readable.read))

end Flags

end StubResolver
