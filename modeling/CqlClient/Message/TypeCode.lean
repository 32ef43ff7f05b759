import CqlClient.Message.Field
import CqlClient.WireType.Basic

/-!
Column types in the metadata of a result: an identifier, followed by the types of the elements.
Collections may nest up to a limit.
-/

namespace CqlClient

def Scalar.typeId : Scalar → UInt16
  | ascii => 0x0001
  | bigint => 0x0002
  | blob => 0x0003
  | boolean => 0x0004
  | counter => 0x0005
  | decimal => 0x0006
  | double => 0x0007
  | float => 0x0008
  | int => 0x0009
  | text => 0x000A
  | timestamp => 0x000B
  | uuid => 0x000C
  | varchar => 0x000D
  | varint => 0x000E
  | timeuuid => 0x000F
  | inet => 0x0010

def Scalar.ofTypeId? (id : UInt16) : Option Scalar := all.find? (·.typeId == id)

theorem Scalar.ofTypeId?_typeId (s : Scalar) : ofTypeId? s.typeId = some s := by
  cases s <;> decide

theorem Scalar.typeId_of_ofTypeId? {id : UInt16} {s : Scalar} (h : ofTypeId? id = some s) :
    s.typeId = id := by
  simpa using List.find?_some h

namespace WireType

/-- The deepest nesting of collections that metadata may have. -/
def maxDepth : Nat := 16

/-- The identifiers of the collections. -/
def listId : UInt16 := 0x0020

def mapId : UInt16 := 0x0021

def setId : UInt16 := 0x0022

/-- The octets that describe a type. -/
def descriptor : WireType → Bytes
  | scalar s => Bytes.ofWord16 s.typeId
  | list e => Bytes.ofWord16 listId ++ e.descriptor
  | map k v => Bytes.ofWord16 mapId ++ k.descriptor ++ v.descriptor
  | set e => Bytes.ofWord16 setId ++ e.descriptor

/-- The type without elements that has this identifier. -/
def scalarOfId (id : UInt16) : Field.Reader WireType :=
  match Scalar.ofTypeId? id with
  | some s => pure (scalar s)
  | none => Field.fail (.unknownTypeId id)

/-- Reads a type in which collections may nest as many levels deep. -/
def readDescriptor : (levels : Nat) → Field.Reader WireType
  | 0 => do
    let id ← Field.word16 "column type"
    if id = listId ∨ id = mapId ∨ id = setId then Field.fail (.typeTooDeep maxDepth)
    else scalarOfId id
  | levels + 1 => do
    let id ← Field.word16 "column type"
    if id = listId then list <$> readDescriptor levels
    else if id = setId then set <$> readDescriptor levels
    else if id = mapId then
      let key ← readDescriptor levels
      map key <$> readDescriptor levels
    else scalarOfId id

end WireType

end CqlClient
