import Baelux.Zigbee.ServerToServer

/-! `device_tx_callback` gets no length: which frames it takes for a command to the device, and
when what an earlier call left in the string decides it. -/

namespace Baelux.Zigbee

open Buffer

def hexDigit (c : Byte) : Option Nat :=
  if 0x30 ≤ c.toNat ∧ c.toNat ≤ 0x39 then some (c.toNat - 0x30)
  else if 0x41 ≤ c.toNat ∧ c.toNat ≤ 0x46 then some (c.toNat - 0x41 + 10)
  else if 0x61 ≤ c.toNat ∧ c.toNat ≤ 0x66 then some (c.toNat - 0x61 + 10)
  else none

def hexNumber (text : List Byte) : Option Nat :=
  text.foldlM (fun sum c => (hexDigit c).map (sum * 16 + ·)) 0

/-- The frame has six bytes, begins with a command and goes on, behind one byte, with the address
in hexadecimal digits. -/
def Denotes (own : BitVec 16) (frame : List Byte) : Prop :=
  ∃ cmd skipped digits behind, frame = cmd :: skipped :: (digits ++ behind) ∧
    (cmd = cmdIndicate ∨ cmd = cmdDisconnect) ∧ digits.length = 4 ∧
    hexNumber digits = some own.toNat

def FrameDecides (own : BitVec 16) (dataInd : DataInd) : Prop :=
  (∀ residual status, ∃ actions, (Receiver.mk own residual status).receive dataInd = some actions ∧
    (actions ≠ [] ↔ Denotes own (declared dataInd.asdu))) ∧
  ∀ residual residual' status status', (Receiver.mk own residual status).receive dataInd =
    (Receiver.mk own residual' status').receive dataInd

def known (frame : List Byte) : List Byte := ((frame ++ [0]).drop 2).take 4

/-- The first byte is no command, or all four characters are there and are digits, or the own
address is none of the sums that the known characters leave possible. -/
def Unmistakable (own : BitVec 16) (frame : List Byte) : Prop :=
  (∀ cmd ∈ frame.head?, cmd ≠ cmdIndicate ∧ cmd ≠ cmdDisconnect) ∨
    (6 ≤ frame.length ∧ ∀ c ∈ known frame, (hexDigit c).isSome) ∨
    ∀ deviation : Int, -span (4 - (known frame).length) ≤ deviation →
      deviation ≤ 41 * span (4 - (known frame).length) →
      BitVec.ofInt 16 (16 ^ (4 - (known frame).length) * numeral (known frame) + deviation) ≠ own

variable {own : BitVec 16} {frame : List Byte} {dataInd : DataInd}

/-! ## Digits -/

theorem char2val_hexDigit {c : Byte} {value : Nat} (digit : hexDigit c = some value) :
    char2val c = value := by
  unfold hexDigit at digit
  unfold char2val
  split at digit
  · rw [if_pos ‹_›]
    cases digit
    omega
  · rw [if_neg ‹_›]
    split at digit
    · rw [if_neg (by omega), if_pos (by omega)]
      cases digit
      omega
    · split at digit
      · rw [if_pos ‹_›]
        cases digit
        omega
      · cases digit

theorem hexNumber_concat (front : List Byte) (c : Byte) : hexNumber (front ++ [c]) =
    (hexNumber front).bind fun sum => (hexDigit c).map (sum * 16 + ·) := by
  simp only [hexNumber, List.foldlM_append, Option.bind_eq_bind, List.foldlM_cons, List.foldlM_nil,
    Option.pure_def, Option.bind_fun_some]

theorem numeral_nonneg {text : List Byte} (digits : ∀ c ∈ text, (hexDigit c).isSome) :
    0 ≤ numeral text := by
  induction text using List.reverseRecOn with
  | nil => exact Int.le_refl 0
  | append_singleton front c ih =>
    rw [List.forall_mem_append, List.forall_mem_singleton] at digits
    rcases Option.isSome_iff_exists.mp digits.2 with ⟨value, digit⟩
    have before := ih digits.1
    rw [numeral_concat, char2val_hexDigit digit]
    omega

theorem hexDigit_lt {c : Byte} {value : Nat} (digit : hexDigit c = some value) : value < 16 := by
  unfold hexDigit at digit
  split at digit
  · cases digit
    omega
  · split at digit
    · cases digit
      omega
    · split at digit
      · cases digit
        omega
      · cases digit

theorem hexNumber_iff (text : List Byte) (number : Nat) :
    hexNumber text = some number ↔
      (∀ c ∈ text, (hexDigit c).isSome) ∧ numeral text = number := by
  induction text using List.reverseRecOn generalizing number with
  | nil =>
    have zero : hexNumber [] = some 0 := rfl
    have zero' : numeral [] = 0 := rfl
    rw [zero, zero', Option.some_inj]
    simp only [List.not_mem_nil, false_implies, implies_true, true_and]
    omega
  | append_singleton front c ih =>
    rw [hexNumber_concat, numeral_concat, List.forall_mem_append]
    simp only [List.forall_mem_singleton, Option.bind_eq_some_iff, Option.map_eq_some_iff, ih]
    constructor
    · intro holds
      rcases holds with ⟨sum, ⟨digits, same⟩, value, digit, rfl⟩
      refine ⟨⟨digits, Option.isSome_of_mem digit⟩, ?_⟩
      rw [same, char2val_hexDigit digit]
      omega
    · intro holds
      rcases holds with ⟨⟨digits, last⟩, same⟩
      rcases Option.isSome_iff_exists.mp last with ⟨value, digit⟩
      have below := hexDigit_lt digit
      have before := numeral_nonneg digits
      rw [char2val_hexDigit digit] at same
      exact ⟨number / 16, ⟨digits, by omega⟩, value, digit, by omega⟩

theorem numeral_lt {text : List Byte} (digits : ∀ c ∈ text, (hexDigit c).isSome) :
    numeral text < 16 ^ text.length := by
  induction text using List.reverseRecOn with
  | nil => decide
  | append_singleton front c ih =>
    rw [List.forall_mem_append, List.forall_mem_singleton] at digits
    rcases Option.isSome_iff_exists.mp digits.2 with ⟨value, digit⟩
    have before := ih digits.1
    have below := hexDigit_lt digit
    rw [numeral_concat, char2val_hexDigit digit, List.length_append, List.length_singleton, pow_succ]
    omega

/-! ## What the callback sees -/

theorem window_eq (text : LongString) : window text = ((List.ofFn text).drop 2).take 4 := by
  apply List.ext_getElem
  · rw [window, List.length_ofFn, List.length_take, List.length_drop, List.length_ofFn]
    rfl
  · intro i _ _
    rw [List.getElem_take, List.getElem_drop, List.getElem_ofFn]
    simp only [window, List.getElem_ofFn]

theorem window_known {text : LongString} {cmd : Byte} {rest behind : List Byte}
    (whole : List.ofFn text = cmd :: rest ++ [0] ++ behind) : window text =
      known (cmd :: rest) ++ behind.take (4 - (known (cmd :: rest)).length) := by
  have two : 2 ≤ (cmd :: rest ++ [0]).length := by
    rw [List.length_append, List.length_cons, List.length_singleton]
    omega
  have missing : ∀ length, 4 - min 4 length = 4 - length := by
    intro length
    omega
  rw [window_eq, whole, List.drop_append_of_le_length two, List.take_append, known,
    List.length_take, missing]

theorem first_byte {text : LongString} {byte : Byte} {behind : List Byte}
    (whole : List.ofFn text = byte :: behind) : text 0 = byte := by
  have listed : 0 < (List.ofFn text).length := by
    rw [List.length_ofFn]
    decide
  have same : (List.ofFn text)[0] = byte := by
    simp only [whole, List.getElem_cons_zero]
  rw [List.getElem_ofFn] at same
  exact same

theorem receive_text (command : dataInd.cmdId = zclSetCustomLsCommandReq)
    (fits : Fits dataInd.asdu) (receiver : Receiver) :
    ∃ text, List.ofFn text = declared dataInd.asdu ++ [0] ++
        (List.ofFn receiver.string).drop ((declared dataInd.asdu).length + 1) ∧
      receiver.receive dataInd = some (deviceTxCallback receiver.shortAddress text) := by
  rcases takeString_fits receiver.string fits with ⟨text, takes, _, whole⟩
  have handles := handler_command receiver.string (fun _ _ => receiver.status) command
  rw [takes, Option.map_some] at handles
  refine ⟨text, whole, ?_⟩
  rw [Receiver.receive, handles, Option.map_some, List.flatMap_singleton]

/-- The characters behind a frame that the callback takes for missing digits. -/
def residue (frame : List Byte) (string : LongString) : List Byte :=
  ((List.ofFn string).drop (frame.length + 1)).take (4 - (known frame).length)

/-- The first byte decides, and the characters of the frame with the residue behind them. -/
theorem receive_frame (command : dataInd.cmdId = zclSetCustomLsCommandReq)
    (fits : Fits dataInd.asdu) {cmd : Byte} {rest : List Byte}
    (frame : declared dataInd.asdu = cmd :: rest) (receiver : Receiver) :
    receiver.receive dataInd =
      some (if BitVec.ofInt 16 (numeral (known (cmd :: rest) ++ residue (cmd :: rest) receiver.string)) =
        receiver.shortAddress then actionsOf cmd else []) := by
  rcases receive_text command fits receiver with ⟨text, whole, receives⟩
  rw [frame] at whole
  rw [receives, deviceTxCallback_eq, window_known whole, first_byte whole, residue]

theorem receive_empty (command : dataInd.cmdId = zclSetCustomLsCommandReq)
    (fits : Fits dataInd.asdu) (frame : declared dataInd.asdu = []) (receiver : Receiver) :
    receiver.receive dataInd = some [] := by
  rcases receive_text command fits receiver with ⟨text, whole, receives⟩
  have silent : actionsOf 0 = [] := by decide
  rw [frame, List.nil_append] at whole
  rw [receives, deviceTxCallback_eq, first_byte whole, silent, ite_self]

theorem length_known (frame : List Byte) : (known frame).length = min 4 (frame.length - 1) := by
  rw [known, List.length_take, List.length_drop, List.length_append, List.length_singleton]
  omega

theorem length_residue (short : frame.length ≤ 2048) (string : LongString) :
    (residue frame string).length = 4 - (known frame).length := by
  have characters := length_known frame
  rw [residue, List.length_take, List.length_drop, List.length_ofFn]
  omega

theorem residue_onto (short : frame.length ≤ 2048) {text : List Byte}
    (length : text.length = 4 - (known frame).length) :
    ∃ string, residue frame string = text := by
  have characters := length_known frame
  have room : frame.length + 1 + text.length ≤ 2049 := by omega
  obtain ⟨string, copies⟩ := copy_of_fits (fun _ => 0) (Nat.le_refl text.length) room
  have held := load_copied copies
  rw [List.take_length] at held
  refine ⟨string, ?_⟩
  rw [residue, ← length]
  exact held.slice room

theorem actionsOf_ne_nil (cmd : Byte) :
    actionsOf cmd ≠ [] ↔ cmd = cmdIndicate ∨ cmd = cmdDisconnect := by
  unfold actionsOf
  split
  · simp [*]
  · split <;> simp [*]

theorem known_full {cmd skipped : Byte} {more : List Byte} (full : 4 ≤ more.length) :
    known (cmd :: skipped :: more) = more.take 4 := by
  rw [known, List.cons_append, List.cons_append, List.drop_succ_cons, List.drop_succ_cons,
    List.drop_zero, List.take_append_of_le_length full]

theorem denotes_iff {cmd : Byte} {rest : List Byte} : Denotes own (cmd :: rest) ↔
    (cmd = cmdIndicate ∨ cmd = cmdDisconnect) ∧ 6 ≤ (cmd :: rest).length ∧
      (∀ c ∈ known (cmd :: rest), (hexDigit c).isSome) ∧ numeral (known (cmd :: rest)) = own.toNat := by
  constructor
  · intro holds
    rcases holds with ⟨_, skipped, digits, behind, same, asks, length, number⟩
    rcases List.cons.inj same with ⟨rfl, rfl⟩
    have full : 4 ≤ (digits ++ behind).length := by
      rw [List.length_append, length]
      exact Nat.le_add_right ..
    have read : known (cmd :: skipped :: (digits ++ behind)) = digits := by
      rw [known_full full, ← length, List.take_left]
    rw [read]
    refine ⟨asks, ?_, (hexNumber_iff digits _).mp number⟩
    rw [List.length_cons, List.length_cons]
    omega
  · intro holds
    rcases holds with ⟨asks, long, number⟩
    cases rest with
    | nil =>
      have one : [cmd].length = 1 := rfl
      omega
    | cons skipped more =>
      have full : 4 ≤ more.length := by
        rw [List.length_cons, List.length_cons] at long
        omega
      rw [known_full full] at number
      exact ⟨cmd, skipped, more.take 4, more.drop 4, by rw [List.take_append_drop], asks,
        List.length_take_of_le full, (hexNumber_iff _ _).mpr number⟩

/-! ## When the frame decides -/

theorem numeral_residue (short : frame.length ≤ 2048) (string : LongString) :
    numeral (known frame ++ residue frame string) =
      16 ^ (4 - (known frame).length) * numeral (known frame) + numeral (residue frame string) := by
  rw [numeral_append, length_residue short]

theorem numeral_complete (short : frame.length ≤ 2048) (long : 6 ≤ frame.length)
    (digits : ∀ c ∈ known frame, (hexDigit c).isSome) (string : LongString) :
    BitVec.ofInt 16 (numeral (known frame ++ residue frame string)) = own ↔
      numeral (known frame) = own.toNat := by
  have characters := length_known frame
  have full : (known frame).length = 4 := by omega
  have nothing : residue frame string = [] := by
    rw [← List.length_eq_zero_iff, length_residue short, full]
  have below := numeral_lt digits
  have above := numeral_nonneg digits
  have small := own.isLt
  rw [full] at below
  rw [nothing, List.append_nil, ← BitVec.toNat_inj, BitVec.toNat_ofInt]
  omega

theorem length_declared {asdu : List Byte} (fits : Fits asdu) : (declared asdu).length ≤ 2048 := by
  match asdu, fits with
  | low :: high :: behind, ⟨inside, short⟩ =>
    rw [declared, List.length_take_of_le inside]
    exact short

theorem unmistakable_acts {cmd : Byte} {rest : List Byte} (short : (cmd :: rest).length ≤ 2048)
    (asks : cmd = cmdIndicate ∨ cmd = cmdDisconnect) : Unmistakable own (cmd :: rest) ↔
      ∀ string, BitVec.ofInt 16 (numeral (known (cmd :: rest) ++ residue (cmd :: rest) string)) = own →
        Denotes own (cmd :: rest) := by
  constructor
  · rintro (silent | ⟨long, digits⟩ | apart) string sums
    · rcases silent cmd rfl with ⟨no, no'⟩
      exact absurd asks (not_or.mpr ⟨no, no'⟩)
    · have number := (numeral_complete short long digits string).mp sums
      exact denotes_iff.mpr ⟨asks, long, digits, number⟩
    · have bounds := numeral_bounds (residue (cmd :: rest) string)
      rw [length_residue short] at bounds
      rw [numeral_residue short] at sums
      exact absurd sums (apart _ bounds.1 bounds.2)
  · intro accepts
    by_cases complete : 6 ≤ (cmd :: rest).length ∧ ∀ c ∈ known (cmd :: rest), (hexDigit c).isSome
    · exact .inr (.inl complete)
    · refine .inr (.inr fun deviation low high sums => complete ?_)
      rcases numeral_onto low high with ⟨text, length, sum⟩
      rcases residue_onto short length with ⟨string, left⟩
      have denotes := accepts string (by rw [numeral_residue short, left, sum, sums])
      rcases denotes_iff.mp denotes with ⟨_, long, digits, _⟩
      exact ⟨long, digits⟩

/-- A frame decides when the strings that make the device act are those of a frame that denotes
it, given that such a frame always makes it act. -/
theorem decides_iff_accepts {sums : LongString → Prop} [DecidablePred sums]
    {actions : List DeviceAction}
    (receives : ∀ residual status, (Receiver.mk own residual status).receive dataInd =
      some (if sums residual then actions else []))
    (acts : Denotes own (declared dataInd.asdu) → actions ≠ [] ∧ ∀ residual, sums residual) :
    FrameDecides own dataInd ↔
      (actions ≠ [] → ∀ residual, sums residual → Denotes own (declared dataInd.asdu)) := by
  constructor
  · intro decides some_action residual reached
    rcases decides.1 residual zclStatusSuccess with ⟨_, received, denotes⟩
    rw [receives, if_pos reached] at received
    rw [← Option.some.inj received] at denotes
    exact denotes.mp some_action
  · intro accepts
    by_cases denotes : Denotes own (declared dataInd.asdu)
    · rcases acts denotes with ⟨some_action, always⟩
      have same : ∀ residual status, (Receiver.mk own residual status).receive dataInd =
          some actions := fun residual status => by rw [receives, if_pos (always residual)]
      refine ⟨fun residual status => ⟨actions, same residual status, ?_⟩, ?_⟩
      · exact iff_of_true some_action denotes
      · intro residual residual' status status'
        rw [same, same]
    · have same : ∀ residual status, (Receiver.mk own residual status).receive dataInd =
          some [] := by
        intro residual status
        rw [receives]
        by_cases nothing : actions = []
        · rw [nothing, ite_self]
        · rw [if_neg fun reached => denotes (accepts nothing residual reached)]
      refine ⟨fun residual status => ⟨[], same residual status, ?_⟩, ?_⟩
      · exact iff_of_false (fun acts => acts rfl) denotes
      · intro residual residual' status status'
        rw [same, same]

/-- For every frame that reaches the callback and every device: what the device does is decided by
the frame, and is what the frame says, exactly when the frame is unmistakable. -/
theorem frame_decides_iff (own : BitVec 16) (dataInd : DataInd)
    (command : dataInd.cmdId = zclSetCustomLsCommandReq) (fits : Fits dataInd.asdu) :
    FrameDecides own dataInd ↔ Unmistakable own (declared dataInd.asdu) := by
  have short := length_declared fits
  cases frame : declared dataInd.asdu with
  | nil =>
    have receives : ∀ residual status, (Receiver.mk own residual status).receive dataInd =
        some (if False then [] else []) :=
      fun residual status => receive_empty command fits frame _
    rw [decides_iff_accepts receives]
    · exact iff_of_true (fun acts => absurd rfl acts) (.inl fun _ none => nomatch none)
    · intro holds
      rcases holds with ⟨_, _, _, _, same, _⟩
      cases frame.symm.trans same
  | cons cmd rest =>
    rw [frame] at short
    have receives : ∀ residual status, (Receiver.mk own residual status).receive dataInd =
        some (if BitVec.ofInt 16 (numeral (known (cmd :: rest) ++ residue (cmd :: rest) residual)) =
          own then actionsOf cmd else []) :=
      fun residual status => receive_frame command fits frame ⟨own, residual, status⟩
    rw [decides_iff_accepts receives, frame, actionsOf_ne_nil]
    · by_cases asks : cmd = cmdIndicate ∨ cmd = cmdDisconnect
      · rw [unmistakable_acts short asks]
        exact ⟨fun accepts => accepts asks, fun accepts _ => accepts⟩
      · refine iff_of_true (fun acts => absurd acts asks) (.inl fun first same => ?_)
        obtain rfl := Option.some.inj same
        exact not_or.mp asks
    · rw [frame, actionsOf_ne_nil]
      intro denotes
      rcases denotes_iff.mp denotes with ⟨asks, long, digits, number⟩
      exact ⟨asks, fun string => (numeral_complete short long digits string).mpr number⟩

/-- An indication to device 0x1234. -/
theorem indication_decides : FrameDecides 0x1234 ⟨⟨0, 0, 0, 0, 0⟩, 0, zclSetCustomLsCommandReq,
      [6, 0, 0xdb, 0xdb, 0x31, 0x32, 0x33, 0x34]⟩ ↔
    Unmistakable 0x1234 [0xdb, 0xdb, 0x31, 0x32, 0x33, 0x34] :=
  frame_decides_iff 0x1234 _ rfl (by unfold Fits; decide)

/-- A single command byte is completed by what an earlier frame left behind. -/
theorem residue_decides : ¬ FrameDecides 0x1234
    ⟨⟨0, 0, 0, 0, 0⟩, 0, zclSetCustomLsCommandReq, [1, 0, 0xdb]⟩ := by
  intro decides
  have same := decides.2 (fun i => [0, 0, 0x31, 0x32, 0x33, 0x34].getD i 0) (fun _ => 0) 0 0
  revert same
  decide

end Baelux.Zigbee
