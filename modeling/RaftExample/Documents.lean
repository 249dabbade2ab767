import RaftExample.JsonText
import RaftExample.StoreBase

/-!
# The documents of the program

The log entries `raftServer.Apply` proposes and the metadata nodes announce over gossip
are JSON documents of small structs.  The state machine takes JSON as a parameter, with
the law that parsing inverts printing; `goJson` is `encoding/json` byte by byte, and
obeys it.  Keys and values travel in base64 and come back whatever they are.  The strings
of the metadata travel as they are, and come back exactly when they are UTF-8.
-/

namespace RaftExample

open JsonText

/-! ### Commands and metadata -/

/-- The command types; any other number is undefined. -/
def cmdQuery : Int := 0
def cmdInsert : Int := 1

structure Command where
  type : Int
  payload : Bytes
deriving DecidableEq, Repr

structure SetPayload where
  key : Bytes
  value : Bytes
deriving DecidableEq, Repr

structure NodeMeta where
  nodeID : Bytes
  raftAddr : Bytes
  grpcAddr : Bytes
deriving DecidableEq, Repr

/-- The two document types of the log, with `none` for a document that does not
    parse. -/
structure Json where
  marshalCommand : Command → Bytes
  unmarshalCommand : Bytes → Option Command
  marshalPayload : SetPayload → Bytes
  unmarshalPayload : Bytes → Option SetPayload

/-- Parsing inverts printing, for the command types a 64-bit `int` holds. -/
structure Json.Lawful (json : Json) : Prop where
  unmarshal_marshalCommand : ∀ command : Command, -2 ^ 63 ≤ command.type → command.type < 2 ^ 63 →
    json.unmarshalCommand (json.marshalCommand command) = some command
  unmarshal_marshalPayload : ∀ payload,
    json.unmarshalPayload (json.marshalPayload payload) = some payload

/-- The log entry `raftServer.Apply` proposes for an `Add`. -/
def encodeInsert (json : Json) (key value : Bytes) : Bytes :=
  json.marshalCommand ⟨cmdInsert, json.marshalPayload ⟨key, value⟩⟩

/-- The type of an `Insert` is one of them. -/
theorem Json.Lawful.unmarshal_encodeInsert {json : Json} (hjson : json.Lawful)
    (key value : Bytes) :
    json.unmarshalCommand (encodeInsert json key value) =
      some ⟨cmdInsert, json.marshalPayload ⟨key, value⟩⟩ := by
  have hlow : -2 ^ 63 ≤ cmdInsert := by decide
  have hhigh : cmdInsert < 2 ^ 63 := by decide
  exact hjson.unmarshal_marshalCommand ⟨cmdInsert, _⟩ hlow hhigh

/-! ### Names of fields -/

/-- `type` -/
def typeName : Bytes := [116, 121, 112, 101]
/-- `payload` -/
def payloadName : Bytes := [112, 97, 121, 108, 111, 97, 100]
/-- `key` -/
def keyName : Bytes := [107, 101, 121]
/-- `val` -/
def valName : Bytes := [118, 97, 108]
/-- `node_id` -/
def nodeIDName : Bytes := [110, 111, 100, 101, 95, 105, 100]
/-- `raft_addr` -/
def raftAddrName : Bytes := [114, 97, 102, 116, 95, 97, 100, 100, 114]
/-- `grpc_addr` -/
def grpcAddrName : Bytes := [103, 114, 112, 99, 95, 97, 100, 100, 114]

/-! ### The structs -/

/-- A `Command` as `json.Unmarshal` fills it. -/
structure ReadCommand where
  type : Int
  payload : Slice

def ReadCommand.command (read : ReadCommand) : Command := ⟨read.type, read.payload.bytes⟩

/-- A `SetPayload` as `json.Unmarshal` fills it. -/
structure ReadPayload where
  key : Slice
  value : Slice

def ReadPayload.payload (read : ReadPayload) : SetPayload := ⟨read.key.bytes, read.value.bytes⟩

def typeField : StructField ReadCommand :=
  intField typeName fun type command => { command with type := type }

def payloadField : StructField ReadCommand :=
  bytesField payloadName ReadCommand.payload fun payload command =>
    { command with payload := payload }

def keyField : StructField ReadPayload :=
  bytesField keyName ReadPayload.key fun key payload => { payload with key := key }

def valField : StructField ReadPayload :=
  bytesField valName ReadPayload.value fun value payload => { payload with value := value }

def nodeIDField : StructField NodeMeta :=
  stringField nodeIDName fun s info => { info with nodeID := s }

def raftAddrField : StructField NodeMeta :=
  stringField raftAddrName fun s info => { info with raftAddr := s }

def grpcAddrField : StructField NodeMeta :=
  stringField grpcAddrName fun s info => { info with grpcAddr := s }

/-- `encoding/json` for the two documents of the log.  The slices `raftServer.Apply` makes
    are never `nil`. -/
def goJson : Json where
  marshalCommand command :=
    printObject [(typeName, decimalInt command.type), (payloadName, printBytes command.payload)]
  unmarshalCommand data :=
    (unmarshal [typeField, payloadField] ⟨0, .fresh []⟩ data).map ReadCommand.command
  marshalPayload payload :=
    printObject [(keyName, printBytes payload.key), (valName, printBytes payload.value)]
  unmarshalPayload data :=
    (unmarshal [keyField, valField] ⟨.fresh [], .fresh []⟩ data).map ReadPayload.payload

/-- What `nodeDelegate.NodeMeta` hands to memberlist. -/
def marshalNodeMeta (info : NodeMeta) : Bytes :=
  printObject [(nodeIDName, quote info.nodeID), (raftAddrName, quote info.raftAddr),
    (grpcAddrName, quote info.grpcAddr)]

/-- What `NotifyJoin` and `NotifyLeave` make of it. -/
def unmarshalNodeMeta : Bytes → Option NodeMeta :=
  unmarshal [nodeIDField, raftAddrField, grpcAddrField] ⟨[], [], []⟩

example : encodeInsert goJson [97] [] =
    printObject [(typeName, [49]), (payloadName, printBytes
      [123, 34, 107, 101, 121, 34, 58, 34, 89, 81, 61, 61, 34, 44, 34, 118, 97, 108, 34, 58, 34, 34,
        125])] := by decide +kernel

/-- A payload of three bytes, then of one, then of three `null`s: the last array finds the
    first one's bytes behind the slice. -/
example : goJson.unmarshalCommand (printObject [(payloadName, [91, 49, 44, 50, 44, 51, 93]),
    (payloadName, [91, 57, 93]), (payloadName, [91, 110, 117, 108, 108, 44, 110, 117, 108, 108, 44,
      110, 117, 108, 108, 93])]) = some ⟨cmdQuery, [9, 2, 3]⟩ := by decide +kernel

/-! ### Integers -/

/-- The value of digits with the least significant one first. -/
def valueLE (digits : Bytes) : Nat := digits.foldr (fun c n => n * 10 + (c.toNat - 48)) 0

theorem valueLE_digitsLE {fuel n : Nat} (h : n < fuel) : valueLE (digitsLE fuel n) = n := by
  induction fuel generalizing n with
  | zero => omega
  | succ fuel ih =>
    have hdigit : (UInt8.ofNat (48 + n % 10)).toNat = 48 + n % 10 :=
      UInt8.toNat_ofNat_of_lt' (by simp [UInt8.size]; omega)
    rw [digitsLE, valueLE, List.foldr_cons, hdigit, ← valueLE]
    by_cases hsmall : n < 10
    · rw [if_pos hsmall]
      simp [valueLE]
      omega
    · rw [if_neg hsmall, ih (by omega)]
      omega

theorem natOf_decimal (n : Nat) : natOf (decimal n) = n := by
  rw [natOf, decimal, List.foldl_reverse]
  exact valueLE_digitsLE (Nat.lt_succ_self n)

theorem all_isDigit_digitsLE (fuel n : Nat) : (digitsLE fuel n).all isDigit = true := by
  induction fuel generalizing n with
  | zero => rfl
  | succ fuel ih =>
    have hall : ∀ d < 10, isDigit (UInt8.ofNat (48 + d)) = true := by decide
    rw [digitsLE, List.all_cons, hall (n % 10) (Nat.mod_lt n (by decide)), Bool.true_and]
    split
    · rfl
    · exact ih (n / 10)

theorem decimal_ne_nil (n : Nat) : decimal n ≠ [] := by simp [decimal, digitsLE]

/-- No zero in front. -/
theorem getLast?_digitsLE {fuel n : Nat} (h : n < fuel)
    (hlast : (digitsLE fuel n).getLast? = some 48) : digitsLE fuel n = [48] := by
  induction fuel generalizing n with
  | zero => omega
  | succ fuel ih =>
    rw [digitsLE] at hlast ⊢
    by_cases hsmall : n < 10
    · rw [if_pos hsmall] at hlast ⊢
      simpa using hlast
    · rw [if_neg hsmall] at hlast
      have hmore : digitsLE fuel (n / 10) ≠ [] := by
        obtain ⟨k, rfl⟩ : ∃ k, fuel = k + 1 := ⟨fuel - 1, by omega⟩
        simp [digitsLE]
      rw [List.getLast?_cons_of_ne_nil hmore] at hlast
      have hone := ih (by omega) hlast
      have hvalue := valueLE_digitsLE (show n / 10 < fuel by omega)
      rw [hone] at hvalue
      simp [valueLE] at hvalue
      omega

theorem all_isDigit_decimal (n : Nat) : (decimal n).all isDigit = true := by
  rw [decimal, List.all_reverse]
  exact all_isDigit_digitsLE _ _

theorem reads_decimalInt (i : Int) : Reads (decimalInt i) (.number (decimalInt i)) := by
  have hdigits := all_isDigit_decimal i.natAbs
  have hzero : (decimal i.natAbs).head? = some 48 → decimal i.natAbs = [48] := by
    rw [decimal, List.head?_reverse]
    intro hlast
    rw [getLast?_digitsLE (Nat.lt_succ_self _) hlast]
    rfl
  unfold decimalInt
  split
  · exact reads_number (.inr rfl) hdigits (decimal_ne_nil _) hzero
  · exact reads_number (.inl rfl) hdigits (decimal_ne_nil _) hzero

theorem parseInt_decimalInt {i : Int} (hlow : -2 ^ 63 ≤ i) (hhigh : i < 2 ^ 63) :
    parseInt (decimalInt i) = some i := by
  have hdigits := all_isDigit_decimal i.natAbs
  unfold decimalInt parseInt
  by_cases hneg : i < 0
  · have habs : -((i.natAbs : Nat) : Int) = i := by omega
    rw [if_pos hneg, List.head?_cons, if_pos rfl, List.tail_cons, natOf_decimal, habs, int64?,
      if_pos ⟨hdigits, hlow, hhigh⟩]
  · have habs : ((i.natAbs : Nat) : Int) = i := by omega
    have hminus : (decimal i.natAbs).head? ≠ some 45 := by
      intro hhead
      have hmem := List.mem_of_mem_head? hhead
      have hdigit := List.all_eq_true.mp hdigits 45 hmem
      revert hdigit
      decide
    rw [if_neg hneg, if_neg hminus, natOf_decimal, habs, int64?, if_pos ⟨hdigits, hlow, hhigh⟩]

/-! ### Round trips -/

theorem unmarshal_marshalCommand {command : Command} (hlow : -2 ^ 63 ≤ command.type)
    (hhigh : command.type < 2 ^ 63) :
    goJson.unmarshalCommand (goJson.marshalCommand command) = some command := by
  have hread := unmarshal_printObject [typeField, payloadField] ⟨0, .fresh []⟩
    [(typeName, decimalInt command.type, .number (decimalInt command.type)),
      (payloadName, printBytes command.payload, .string (Base64.encode command.payload))]
    (by simp) (by simp [reads_decimalInt, reads_printBytes])
  have htype : findField [typeField, payloadField] (toValid typeName) = some typeField := rfl
  have hpayload : findField [typeField, payloadField] (toValid payloadName) = some payloadField :=
    rfl
  have hnumber : typeField.store (.number (decimalInt command.type)) ⟨0, .fresh []⟩ =
      some ⟨command.type, .fresh []⟩ := by
    simp [typeField, intField, parseInt_decimalInt hlow hhigh]
  have hbytes : payloadField.store (.string (Base64.encode command.payload))
      ⟨command.type, .fresh []⟩ = some ⟨command.type, .fresh command.payload⟩ :=
    store_bytesField ..
  simp only [List.map_cons, List.map_nil, storeMembers, htype, hnumber, hpayload, hbytes] at hread
  exact congrArg (Option.map ReadCommand.command) hread

theorem unmarshal_marshalPayload (payload : SetPayload) :
    goJson.unmarshalPayload (goJson.marshalPayload payload) = some payload := by
  have hread := unmarshal_printObject [keyField, valField] ⟨.fresh [], .fresh []⟩
    [(keyName, printBytes payload.key, .string (Base64.encode payload.key)),
      (valName, printBytes payload.value, .string (Base64.encode payload.value))]
    (by simp) (by simp [reads_printBytes])
  have hkey : findField [keyField, valField] (toValid keyName) = some keyField := rfl
  have hval : findField [keyField, valField] (toValid valName) = some valField := rfl
  have hfirst : keyField.store (.string (Base64.encode payload.key)) ⟨.fresh [], .fresh []⟩ =
      some ⟨.fresh payload.key, .fresh []⟩ := store_bytesField ..
  have hsecond : valField.store (.string (Base64.encode payload.value))
      ⟨.fresh payload.key, .fresh []⟩ = some ⟨.fresh payload.key, .fresh payload.value⟩ :=
    store_bytesField ..
  simp only [List.map_cons, List.map_nil, storeMembers, hkey, hfirst, hval, hsecond] at hread
  exact congrArg (Option.map ReadPayload.payload) hread

theorem goJson_lawful : goJson.Lawful where
  unmarshal_marshalCommand _ := unmarshal_marshalCommand
  unmarshal_marshalPayload := unmarshal_marshalPayload

/-- Metadata comes back with the valid part of each string. -/
theorem unmarshal_marshalNodeMeta (info : NodeMeta) :
    unmarshalNodeMeta (marshalNodeMeta info) =
      some ⟨toValid info.nodeID, toValid info.raftAddr, toValid info.grpcAddr⟩ := by
  have hread := unmarshal_printObject [nodeIDField, raftAddrField, grpcAddrField] ⟨[], [], []⟩
    [(nodeIDName, quote info.nodeID, .string (toValid info.nodeID)),
      (raftAddrName, quote info.raftAddr, .string (toValid info.raftAddr)),
      (grpcAddrName, quote info.grpcAddr, .string (toValid info.grpcAddr))]
    (by simp) (by simp [reads_quote])
  exact hread

end RaftExample
