/-
The numeric codes of a message that have names: operations, response codes and record
types.

Each enumeration has a `code`, the number on the wire, and an `ofCode`, which refuses the
numbers that have no name here.  `name` is the word by which a code is shown in texts.
-/
namespace StubResolver

/-- A number that is not the code of anything known. -/
structure InvalidCode where
  code : Nat
deriving DecidableEq, Repr

/-- The wording of an unknown code. -/
def InvalidCode.message (invalid : InvalidCode) : String :=
  s!"invalid code: {invalid.code}"

/-! ## Operations -/

/-- What a message asks the server to do. -/
inductive Opcode where
  | query
  | inverseQuery
  | status
  | notify
  | update
  | stateful
deriving DecidableEq, Repr

namespace Opcode

/-- The number of an operation on the wire. -/
def code : Opcode → Nat
  | query => 0
  | inverseQuery => 1
  | status => 2
  | notify => 4
  | update => 5
  | stateful => 6

/-- The operation with a given number. -/
def ofCode : Nat → Except InvalidCode Opcode
  | 0 => .ok query
  | 1 => .ok inverseQuery
  | 2 => .ok status
  | 4 => .ok notify
  | 5 => .ok update
  | 6 => .ok stateful
  | n => .error ⟨n⟩

/-- The word for an operation. -/
def name : Opcode → String
  | query => "Query"
  | inverseQuery => "IQuery"
  | status => "Status"
  | notify => "Notify"
  | update => "Update"
  | stateful => "Dso"

@[simp] theorem ofCode_code (opcode : Opcode) : ofCode opcode.code = .ok opcode := by
  cases opcode <;> rfl

end Opcode

/-! ## Response codes -/

/-- How a server says that a request went. -/
inductive ResponseCode where
  | noError
  | formatError
  | serverFailure
  | nameError
  | notImplemented
  | refused
  | yxDomain
  | yxRrSet
  | nxRrSet
  | notAuth
  | notZone
  | statefulTypeNotImplemented
deriving DecidableEq, Repr

namespace ResponseCode

/-- The number of a response code on the wire. -/
def code : ResponseCode → Nat
  | noError => 0
  | formatError => 1
  | serverFailure => 2
  | nameError => 3
  | notImplemented => 4
  | refused => 5
  | yxDomain => 6
  | yxRrSet => 7
  | nxRrSet => 8
  | notAuth => 9
  | notZone => 10
  | statefulTypeNotImplemented => 11

/-- The response code with a given number. -/
def ofCode : Nat → Except InvalidCode ResponseCode
  | 0 => .ok noError
  | 1 => .ok formatError
  | 2 => .ok serverFailure
  | 3 => .ok nameError
  | 4 => .ok notImplemented
  | 5 => .ok refused
  | 6 => .ok yxDomain
  | 7 => .ok yxRrSet
  | 8 => .ok nxRrSet
  | 9 => .ok notAuth
  | 10 => .ok notZone
  | 11 => .ok statefulTypeNotImplemented
  | n => .error ⟨n⟩

/-- The word for a response code. -/
def name : ResponseCode → String
  | noError => "NoError"
  | formatError => "FormatError"
  | serverFailure => "ServerFailure"
  | nameError => "NameError"
  | notImplemented => "NotImplemented"
  | refused => "Refused"
  | yxDomain => "YxDomain"
  | yxRrSet => "YxRrSet"
  | nxRrSet => "NxRrSet"
  | notAuth => "NotAuth"
  | notZone => "NotZone"
  | statefulTypeNotImplemented => "DsoTypeNi"

@[simp] theorem ofCode_code (response : ResponseCode) : ofCode response.code = .ok response := by
  cases response <;> rfl

theorem code_lt (response : ResponseCode) : response.code < 16 := by
  cases response <;> decide

end ResponseCode

/-! ## Record types -/

/-- A type of resource record. -/
inductive RecordType where
  | a
  | mx
  | aaaa
deriving DecidableEq, Repr

namespace RecordType

/-- The number of a record type on the wire. -/
def code : RecordType → UInt16
  | a => 1
  | mx => 15
  | aaaa => 28

/-- The record type with a given number. -/
def ofCode : Nat → Except InvalidCode RecordType
  | 1 => .ok a
  | 15 => .ok mx
  | 28 => .ok aaaa
  | n => .error ⟨n⟩

/-- The word for a record type. -/
def name : RecordType → String
  | a => "A"
  | mx => "MX"
  | aaaa => "AAAA"

@[simp] theorem ofCode_code (type : RecordType) : ofCode type.code.toNat = .ok type := by
  cases type <;> rfl

end RecordType

/-- A record type that a resolver can look up and understand the data of. -/
inductive QueryType where
  /-- The IPv4 address of a host. -/
  | a
  /-- The mail exchange of a domain. -/
  | mx
deriving DecidableEq, Repr

namespace QueryType

/-- The record type that is asked for. -/
def recordType : QueryType → RecordType
  | a => .a
  | mx => .mx

/-- The number of the type on the wire. -/
def code (type : QueryType) : UInt16 :=
  type.recordType.code

/-- The word for a query type. -/
def name : QueryType → String
  | a => "A"
  | mx => "Mx"

end QueryType

/-- The query type for a record type, where its data is understood. -/
def RecordType.queryType? : RecordType → Option QueryType
  | a => some .a
  | mx => some .mx
  | aaaa => none

end StubResolver
