import FlashKV.Database.Operations

/-!
# What the commands use of a storage engine

The operations that the data commands call, with the one clock reading of the command. `Database` is
the engine of the source; the commands are written for any engine, so that they can also be run
against a reference.
-/

namespace FlashKV

/-- A storage engine: the data operations of `Database`, each at one clock reading. -/
class Storage (σ : Type) where
  del : Bytes → Int → StateAction DbError σ Bool
  existsKey : Bytes → Int → StateAction DbError σ Bool
  type : Bytes → Int → StateAction DbError σ (Option ValueType)
  keys : Bytes → Int → StateAction DbError σ (List Bytes)
  clear : StateAction DbError σ Unit
  set : Bytes → Bytes → Int → StateAction DbError σ Unit
  get : Bytes → Int → StateAction DbError σ (Option Bytes)
  incrementBy : Bytes → Int → Int → StateAction DbError σ Int
  append : Bytes → Bytes → Int → StateAction DbError σ Nat
  stringLength : Bytes → Int → StateAction DbError σ Nat
  expireAtMs : Bytes → Int → Int → StateAction DbError σ Bool
  persist : Bytes → Int → StateAction DbError σ Bool
  ttlMs : Bytes → Int → StateAction DbError σ Int
  ttl : Bytes → Int → StateAction DbError σ Int
  listPush : Bytes → List Bytes → ListSide → Int → StateAction DbError σ Nat
  listPop : Bytes → ListSide → Int → StateAction DbError σ (Option Bytes)
  listRange : Bytes → Int → Int → Int → StateAction DbError σ (List Bytes)
  listIndex : Bytes → Int → Int → StateAction DbError σ (Option Bytes)
  listLength : Bytes → Int → StateAction DbError σ Nat
  hashSet : Bytes → List (Bytes × Bytes) → Int → StateAction DbError σ Nat
  hashGet : Bytes → Bytes → Int → StateAction DbError σ (Option Bytes)
  hashDelete : Bytes → List Bytes → Int → StateAction DbError σ Nat
  hashGetAll : Bytes → Int → StateAction DbError σ (List (Bytes × Bytes))
  hashLength : Bytes → Int → StateAction DbError σ Nat
  hashExists : Bytes → Bytes → Int → StateAction DbError σ Bool
  setAdd : Bytes → List Bytes → Int → StateAction DbError σ Nat
  setRemove : Bytes → List Bytes → Int → StateAction DbError σ Nat
  setMembers : Bytes → Int → StateAction DbError σ (List Bytes)
  setIsMember : Bytes → Bytes → Int → StateAction DbError σ Bool
  setCardinality : Bytes → Int → StateAction DbError σ Nat

instance : Storage Database where
  del := Database.del
  existsKey := Database.existsKey
  type := Database.type
  keys := Database.keys
  clear := Database.clear
  set := Database.set
  get := Database.get
  incrementBy := Database.incrementBy
  append := Database.append
  stringLength := Database.stringLength
  expireAtMs key unixTimeMs now := Database.expireAtMs key unixTimeMs now now
  persist := Database.persist
  ttlMs key now := Database.ttlMs key now now
  ttl key now := Database.ttl key now now
  listPush := Database.listPush
  listPop := Database.listPop
  listRange := Database.listRange
  listIndex := Database.listIndex
  listLength := Database.listLength
  hashSet := Database.hashSet
  hashGet := Database.hashGet
  hashDelete := Database.hashDelete
  hashGetAll := Database.hashGetAll
  hashLength := Database.hashLength
  hashExists := Database.hashExists
  setAdd := Database.setAdd
  setRemove := Database.setRemove
  setMembers := Database.setMembers
  setIsMember := Database.setIsMember
  setCardinality := Database.setCardinality

end FlashKV
