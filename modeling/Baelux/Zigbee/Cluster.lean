import Baelux.Library.Buffer

/-! `app_zigbee_cluster_server.c`: the handler of the commands of the custom cluster.
`none` stands for a run that reads or writes outside an array. -/

namespace Baelux.Zigbee

open Buffer

abbrev ZclStatusCode := BitVec 8

def zclStatusSuccess : ZclStatusCode := 0x00
def zclStatusUnsuppCommand : ZclStatusCode := 0x81

def zclSetCustomLsCommandReq : Byte := 0x00

def zbApsdeAddrmodeShort : Byte := 2

structure ZbApsAddr where
  mode : Byte
  endpoint : BitVec 16
  panId : BitVec 16
  nwkAddr : BitVec 16
  extAddr : BitVec 64
  deriving DecidableEq

structure ZbZclAddrInfo where
  addr : ZbApsAddr
  seqnum : Byte
  txOptions : BitVec 16
  deriving DecidableEq

/-- What the handler reads of `struct ZbZclHeaderT` and `struct ZbApsdeDataIndT`. -/
structure DataInd where
  src : ZbApsAddr
  seqNum : Byte
  cmdId : Byte
  asdu : List Byte

def pletoh16 : List Byte → Option (BitVec 16)
  | low :: high :: _ => some (high ++ low)
  | _ => none

/-- `char string[2049]`, which a `struct set_custom_ls_command_req_t` points at. -/
abbrev LongString := Buffer 2049

/-- `set_custom_ls_command` of `struct zb_cluster_server_callback_t`. -/
abbrev SetCustomLsCommand := LongString → ZbZclAddrInfo → ZclStatusCode

structure Handled where
  status : ZclStatusCode
  calls : List (LongString × ZbZclAddrInfo)

/-- The declared bytes of a payload are copied and get a NUL behind them. -/
def takeString (asdu : List Byte) (string : LongString) : Option LongString := do
  let len ← pletoh16 asdu
  let string ← string.copy 0 (asdu.drop 2) len.toNat
  string.store len.toNat 0

/-- `custom_ls_command_handler`, with what `string` holds before. -/
def customLsCommandHandler (setCustomLsCommand : Option SetCustomLsCommand) (dataInd : DataInd)
    (string : LongString) : Option Handled :=
  let srcInfo := ⟨dataInd.src, dataInd.seqNum, 0⟩
  if dataInd.cmdId = zclSetCustomLsCommandReq then
    match setCustomLsCommand with
    | none => some ⟨zclStatusUnsuppCommand, []⟩
    | some callback => do
        let string ← takeString dataInd.asdu string
        some ⟨callback string srcInfo, [(string, srcInfo)]⟩
  else some ⟨zclStatusUnsuppCommand, []⟩

/-- The declared length is there, and neither the payload nor the string is shorter. -/
def Fits : List Byte → Prop
  | low :: high :: behind =>
      256 * high.toNat + low.toNat ≤ behind.length ∧ 256 * high.toNat + low.toNat ≤ 2048
  | _ => False

def declared : List Byte → List Byte
  | low :: high :: behind => behind.take (256 * high.toNat + low.toNat)
  | _ => []

/-- No access outside an array; the callback gets the declared bytes where they fit, and is not
called otherwise. -/
def Decodes (setCustomLsCommand : Option SetCustomLsCommand) (dataInd : DataInd)
    (string : LongString) : Prop :=
  ∃ handled, customLsCommandHandler setCustomLsCommand dataInd string = some handled ∧
    ((dataInd.cmdId = zclSetCustomLsCommandReq ∧ setCustomLsCommand ≠ none ∧ Fits dataInd.asdu ∧
        ∃ text, handled.calls = [(text, ⟨dataInd.src, dataInd.seqNum, 0⟩)] ∧
          text.Holds 0 (declared dataInd.asdu ++ [0])) ∨
      (¬ (dataInd.cmdId = zclSetCustomLsCommandReq ∧ setCustomLsCommand ≠ none ∧
        Fits dataInd.asdu) ∧ handled.calls = []))

section Handler

variable {dataInd : DataInd} (string : LongString)

theorem append_toNat (low high : Byte) : (high ++ low).toNat = 256 * high.toNat + low.toNat := by
  rw [BitVec.toNat_append, Nat.shiftLeft_eq, ← Nat.shiftLeft_eq, ← Nat.shiftLeft_add_eq_or_of_lt,
    Nat.shiftLeft_eq, Nat.mul_comm]
  exact low.isLt

/-- A payload that fits gives its bytes and a NUL, and the rest stays. -/
theorem takeString_fits {asdu : List Byte} (fits : Fits asdu) :
    ∃ text, takeString asdu string = some text ∧ text.Holds 0 (declared asdu ++ [0]) ∧
      List.ofFn text =
        declared asdu ++ [0] ++ (List.ofFn string).drop ((declared asdu).length + 1) := by
  match asdu, fits with
  | low :: high :: behind, ⟨inside, short⟩ =>
    have length := append_toNat low high
    rw [← length] at inside short
    have room : 0 + (high ++ low).toNat ≤ 2049 := by omega
    have more : (high ++ low).toNat < 2049 := by omega
    rcases copy_of_fits string inside room with ⟨copied, copies⟩
    rcases store_of_lt copied more 0 with ⟨text, stores⟩
    rw [declared, ← length, List.length_take_of_le inside]
    refine ⟨text, ?_, holds_terminated inside copies stores, ofFn_terminated inside copies stores⟩
    simp only [takeString, pletoh16, Option.bind_eq_bind, Option.bind_some, List.drop_succ_cons,
      List.drop_zero, copies, stores]

theorem takeString_overruns {asdu : List Byte} (longer : ¬ Fits asdu) :
    takeString asdu string = none := by
  match asdu with
  | [] => rfl
  | [_] => rfl
  | low :: high :: behind =>
    have length := append_toNat low high
    simp only [Fits, ← length] at longer
    simp only [takeString, pletoh16, Option.bind_eq_bind, Option.bind_some, List.drop_succ_cons,
      List.drop_zero]
    by_cases inside : (high ++ low).toNat ≤ behind.length
    · cases string.copy 0 behind (high ++ low).toNat with
      | none => rfl
      | some copied =>
        have full : 2049 ≤ (high ++ low).toNat := by omega
        rw [Option.bind_some, store_none full]
    · rw [copy_none (.inl (Nat.lt_of_not_le inside)), Option.bind_none]

theorem handler_command (callback : SetCustomLsCommand)
    (command : dataInd.cmdId = zclSetCustomLsCommandReq) :
    customLsCommandHandler (some callback) dataInd string =
      (takeString dataInd.asdu string).map fun text =>
        ⟨callback text ⟨dataInd.src, dataInd.seqNum, 0⟩,
          [(text, ⟨dataInd.src, dataInd.seqNum, 0⟩)]⟩ := by
  rw [customLsCommandHandler, if_pos command]
  cases takeString dataInd.asdu string <;> rfl

/-- For every payload and every length of it: the handler stays inside its arrays and passes on
what is declared exactly when a command that it takes fits. -/
theorem decodes_iff (setCustomLsCommand : Option SetCustomLsCommand) (dataInd : DataInd)
    (string : LongString) : Decodes setCustomLsCommand dataInd string ↔
      (dataInd.cmdId = zclSetCustomLsCommandReq → setCustomLsCommand ≠ none → Fits dataInd.asdu) := by
  by_cases command : dataInd.cmdId = zclSetCustomLsCommandReq
  · cases setCustomLsCommand with
    | none =>
      have rejects : customLsCommandHandler none dataInd string =
          some ⟨zclStatusUnsuppCommand, []⟩ := if_pos command
      constructor
      · intro _ _ absent
        exact absurd rfl absent
      · intro _
        exact ⟨_, rejects, .inr ⟨fun asks => asks.2.1 rfl, rfl⟩⟩
    | some callback =>
      have present : some callback ≠ none := Option.some_ne_none callback
      have handles := handler_command string callback command
      by_cases fits : Fits dataInd.asdu
      · rcases takeString_fits string fits with ⟨text, takes, held, _⟩
        rw [takes, Option.map_some] at handles
        constructor
        · intro _ _ _
          exact fits
        · intro _
          exact ⟨_, handles, .inl ⟨command, present, fits, text, rfl, held⟩⟩
      · rw [takeString_overruns string fits, Option.map_none] at handles
        constructor
        · intro holds
          rcases holds with ⟨_, handles', _⟩
          cases handles.symm.trans handles'
        · intro condition
          exact absurd (condition command present) fits
  · have rejects : customLsCommandHandler setCustomLsCommand dataInd string =
        some ⟨zclStatusUnsuppCommand, []⟩ := if_neg command
    constructor
    · intro _ asks
      exact absurd asks command
    · intro _
      exact ⟨_, rejects, .inr ⟨fun asks => command asks.1, rfl⟩⟩

/-- Five bytes are declared and one is there. -/
theorem short_payload_not_decoded : ¬ Decodes (some fun _ _ => zclStatusSuccess)
    ⟨⟨zbApsdeAddrmodeShort, 1, 0, 0x1234, 0⟩, 0, zclSetCustomLsCommandReq, [5, 0, 0xdb]⟩
    (fun _ => 0) := by
  intro holds
  rcases holds with ⟨_, handles, _⟩
  cases handles

end Handler

end Baelux.Zigbee
