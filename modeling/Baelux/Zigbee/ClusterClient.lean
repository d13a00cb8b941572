import Baelux.Zigbee.Cluster
import Mathlib.Algebra.Group.Nat.Defs

/-! `app_zigbee_cluster_client.c`: strings are sent in commands of the custom cluster, and when
they arrive as they were. -/

namespace Baelux.Zigbee

open Buffer

def zclStatusInvalidValue : ZclStatusCode := 0x87

abbrev maxid : Nat := 10

/-- `struct client_t`, with a name for the cluster it points at. -/
structure Client where
  cluster : Nat
  endpoint : BitVec 8

structure ZbZclClusterCommandReq where
  dst : ZbApsAddr
  cmdId : Byte
  noDefaultResp : Bool
  payload : List Byte
  length : Nat

structure Commanded where
  status : ZclStatusCode
  requests : List (Nat × ZbZclClusterCommandReq)

def putle16 {size : Nat} (p : Buffer size) (value : BitVec 16) : Option (Buffer size) := do
  let p ← p.store 0 (value.extractLsb' 0 8)
  p.store 1 (value.extractLsb' 8 8)

abbrev Payload := Buffer 2050

/-- The common body of the two commands, with what `payload` holds before. -/
def commandTo (cluster : Nat) (dst : ZbApsAddr) (string : List Byte) (payload : Payload) :
    Option Commanded := do
  let text ← cString string
  let len := BitVec.ofNat 16 text.length
  if 2048 < len.toNat then some ⟨zclStatusInvalidValue, []⟩
  else do
    let payload ← putle16 payload len
    let payload ← payload.copy 2 string len.toNat
    some ⟨zclStatusSuccess,
      [(cluster, ⟨dst, zclSetCustomLsCommandReq, true, List.ofFn payload, len.toNat + 2⟩)]⟩

def zbClusterClientCommand (mClient : Fin maxid → Client) (id : Fin maxid) (dst : ZbApsAddr)
    (string : List Byte) (payload : Payload) : Option Commanded :=
  commandTo (mClient id).cluster dst string payload

def zbClusterClientCommandBroadcast (mClient : Fin maxid → Client) (id : Fin maxid)
    (shortAddr : BitVec 16) (string : List Byte) (payload : Payload) : Option Commanded :=
  commandTo (mClient id).cluster
    ⟨zbApsdeAddrmodeShort, (mClient id).endpoint.setWidth 16, 0, shortAddr, 0⟩ string payload

/-- The stack delivers the payload of a request unchanged. -/
def ZbZclClusterCommandReq.delivered (req : ZbZclClusterCommandReq) (src : ZbApsAddr)
    (seqNum : Byte) : DataInd :=
  ⟨src, seqNum, req.cmdId, req.payload.take req.length⟩

def Reaches (req : ZbZclClusterCommandReq) (text : List Byte) : Prop :=
  ∀ callback src seqNum string, ∃ status received info,
    customLsCommandHandler (some callback) (req.delivered src seqNum) string =
        some ⟨status, [(received, info)]⟩ ∧
      cString (List.ofFn received) = some text

def RoundTrips (result : Option Commanded) (text : List Byte) : Prop :=
  (result = some ⟨zclStatusInvalidValue, []⟩ ∧ 2048 < text.length) ∨
    ∃ status cluster req, result = some ⟨status, [(cluster, req)]⟩ ∧
      status ≠ zclStatusInvalidValue ∧ text.length ≤ 2048 ∧ Reaches req text

/-! ## The round trip -/

theorem bytes_toNat (len : BitVec 16) :
    256 * (len.extractLsb' 8 8).toNat + (len.extractLsb' 0 8).toNat = len.toNat := by
  have small := len.isLt
  simp only [BitVec.extractLsb'_toNat, Nat.shiftRight_eq_div_pow]
  omega

variable {text string : List Byte} {dst : ZbApsAddr} {cluster : Nat}

theorem payload_written (named : cString string = some text) (payload : Payload) {len : BitVec 16}
    (short : len.toNat ≤ 2048) (inside : len.toNat ≤ text.length) :
    ∃ headed written : Payload, putle16 payload len = some headed ∧
      headed.copy 2 string len.toNat = some written ∧
      (List.ofFn written).take (len.toNat + 2) =
        len.extractLsb' 0 8 :: len.extractLsb' 8 8 :: text.take len.toNat := by
  rcases cString_split named with ⟨_, behind, rfl⟩
  have first : 0 < 2050 := by decide
  have second : 1 < 2050 := by decide
  have room : 2 + len.toNat ≤ 2050 := by omega
  have source : len.toNat ≤ (text ++ 0 :: behind).length := by
    rw [List.length_append]
    omega
  rcases store_of_lt payload first (len.extractLsb' 0 8) with ⟨low, stores_low⟩
  rcases store_of_lt low second (len.extractLsb' 8 8) with ⟨headed, stores_high⟩
  rcases copy_of_fits headed source room with ⟨written, copies⟩
  refine ⟨headed, written, ?_, copies, ?_⟩
  · rw [putle16, stores_low]
    exact stores_high
  · have length : len.toNat + 2 =
        (len.extractLsb' 0 8 :: len.extractLsb' 8 8 :: text.take len.toNat).length := by
      rw [List.length_cons, List.length_cons, List.length_take_of_le inside]
    rw [length]
    apply Holds.ofFn
    have held := holds_headed stores_low stores_high copies
    rwa [List.take_append_of_le_length inside] at held

/-- What a server makes of a payload that begins with the length of a text and goes on with the
text: the text and a NUL stand in the string, and the rest of the string stays. -/
theorem payload_received {req : ZbZclClusterCommandReq} {len : BitVec 16}
    (command : req.cmdId = zclSetCustomLsCommandReq) (length : len.toNat = text.length)
    (short : text.length ≤ 2048)
    (payload : req.payload.take req.length = len.extractLsb' 0 8 :: len.extractLsb' 8 8 :: text)
    (callback : SetCustomLsCommand) (src : ZbApsAddr) (seqNum : Byte) (string : LongString) :
    ∃ status received info, customLsCommandHandler (some callback) (req.delivered src seqNum)
        string = some ⟨status, [(received, info)]⟩ ∧
      received.Holds 0 (text ++ [0]) ∧
      List.ofFn received = text ++ [0] ++ (List.ofFn string).drop (text.length + 1) := by
  have all : 256 * (len.extractLsb' 8 8).toNat + (len.extractLsb' 0 8).toNat = text.length :=
    (bytes_toNat len).trans length
  have fits : Fits (req.delivered src seqNum).asdu := by
    rw [ZbZclClusterCommandReq.delivered, payload]
    exact ⟨all.le, all ▸ short⟩
  have bytes : declared (req.delivered src seqNum).asdu = text := by
    rw [ZbZclClusterCommandReq.delivered, payload, declared, all, List.take_length]
  rcases takeString_fits string fits with ⟨received, takes, held, whole⟩
  rw [bytes] at held whole
  have asks : (req.delivered src seqNum).cmdId = zclSetCustomLsCommandReq := command
  have handles := handler_command string callback asks
  rw [takes, Option.map_some] at handles
  exact ⟨_, received, _, handles, held, whole⟩

theorem command_sends (named : cString string = some text) (cluster : Nat) (dst : ZbApsAddr)
    (payload : Payload) (short : (BitVec.ofNat 16 text.length).toNat ≤ 2048) :
    ∃ req, commandTo cluster dst string payload = some ⟨zclStatusSuccess, [(cluster, req)]⟩ ∧
      req.cmdId = zclSetCustomLsCommandReq ∧ req.payload.take req.length =
        (BitVec.ofNat 16 text.length).extractLsb' 0 8 ::
          (BitVec.ofNat 16 text.length).extractLsb' 8 8 ::
            text.take (BitVec.ofNat 16 text.length).toNat := by
  have below : (BitVec.ofNat 16 text.length).toNat ≤ text.length := by
    rw [BitVec.toNat_ofNat]
    exact Nat.mod_le ..
  rcases payload_written named payload short below with ⟨headed, written, heads, writes, bytes⟩
  refine ⟨⟨dst, zclSetCustomLsCommandReq, true, List.ofFn written,
    (BitVec.ofNat 16 text.length).toNat + 2⟩, ?_, rfl, ?_⟩
  · simp only [commandTo, named, Option.bind_eq_bind, Option.bind_some, Nat.not_lt.mpr short,
      ↓reduceIte, heads, writes]
  · rw [bytes]

theorem command_round_trips_iff (named : cString string = some text) (cluster : Nat)
    (dst : ZbApsAddr) (payload : Payload) :
    RoundTrips (commandTo cluster dst string payload) text ↔
      text.length ≤ 2048 ∨ 2048 < text.length % 2 ^ 16 := by
  have narrowed : (BitVec.ofNat 16 text.length).toNat = text.length % 2 ^ 16 :=
    BitVec.toNat_ofNat ..
  have below : text.length % 2 ^ 16 ≤ text.length := Nat.mod_le ..
  by_cases refused : 2048 < text.length % 2 ^ 16
  · refine ⟨fun _ => .inr refused, fun _ => .inl ⟨?_, Nat.lt_of_lt_of_le refused below⟩⟩
    simp only [commandTo, named, Option.bind_eq_bind, Option.bind_some, narrowed, refused, ↓reduceIte]
  · have short : (BitVec.ofNat 16 text.length).toNat ≤ 2048 := by omega
    rcases command_sends named cluster dst payload short with ⟨req, sends, command, bytes⟩
    constructor
    · rintro (⟨refuses, _⟩ | ⟨_, _, _, _, _, whole, _⟩)
      · cases sends.symm.trans refuses
      · exact .inl whole
    · intro condition
      have whole : text.length ≤ 2048 := condition.resolve_right refused
      have length : (BitVec.ofNat 16 text.length).toNat = text.length :=
        narrowed.trans (Nat.mod_eq_of_lt (by omega))
      rw [length, List.take_length] at bytes
      refine .inr ⟨_, _, _, sends, by decide, whole, ?_⟩
      intro callback src seqNum string
      obtain ⟨status, received, info, handles, held, _⟩ :=
        payload_received command length whole bytes callback src seqNum string
      exact ⟨status, received, info, handles, held.ends (cString_split named).1⟩

/-- Strings of every length: a string arrives or is refused as it should unless the narrowing to
16 bits makes a long string look short. -/
theorem command_strings_round_trip_iff (mClient : Fin maxid → Client) (id : Fin maxid)
    (string text : List Byte) (named : cString string = some text) (payload : Payload) :
    (∀ dst, RoundTrips (zbClusterClientCommand mClient id dst string payload) text ↔
      text.length ≤ 2048 ∨ 2048 < text.length % 2 ^ 16) ∧
    ∀ shortAddr,
      RoundTrips (zbClusterClientCommandBroadcast mClient id shortAddr string payload) text ↔
        text.length ≤ 2048 ∨ 2048 < text.length % 2 ^ 16 :=
  ⟨fun _ => command_round_trips_iff named _ _ payload,
    fun _ => command_round_trips_iff named _ _ payload⟩

theorem greeting_round_trips :
    (∀ dst, RoundTrips (zbClusterClientCommand (fun _ => ⟨0, 1⟩) 0 dst [104, 105, 0] fun _ => 0)
        [104, 105] ↔ 2 ≤ 2048 ∨ 2048 < 2 % 2 ^ 16) ∧
      ∀ shortAddr, RoundTrips (zbClusterClientCommandBroadcast (fun _ => ⟨0, 1⟩) 0 shortAddr
        [104, 105, 0] fun _ => 0) [104, 105] ↔ 2 ≤ 2048 ∨ 2048 < 2 % 2 ^ 16 :=
  command_strings_round_trip_iff (fun _ => ⟨0, 1⟩) 0 [104, 105, 0] [104, 105] rfl fun _ => 0

/-- A string of 65536 characters is sent as the empty one. -/
theorem long_string_cut : ¬ RoundTrips (zbClusterClientCommandBroadcast (fun _ => ⟨0, 1⟩) 0 0xfffd
    (List.replicate 65536 97 ++ [0]) fun _ => 0) (List.replicate 65536 97) := by
  have noNul : (0 : Byte) ∉ List.replicate 65536 97 := by
    intro member
    exact absurd (List.eq_of_mem_replicate member) (by decide)
  intro trips
  have length := (command_round_trips_iff (cString_text [] noNul) _ _ _).mp trips
  rw [List.length_replicate] at length
  revert length
  decide

end Baelux.Zigbee
