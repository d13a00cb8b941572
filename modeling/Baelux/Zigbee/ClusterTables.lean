import Baelux.Library.Ledger
import Baelux.Zigbee.BinaryCommands

/-! The tables of `app_zigbee_cluster_client.c` and `app_zigbee_cluster_server.c`, and which
of their entries the application uses. A pointer is a number, and NULL is 0. -/

namespace Baelux.Zigbee.ClusterTables

open Buffer

abbrev ClusterId := BitVec 16

def invalidid : ClusterId := 0xffff

def devEndpoint : BitVec 16 := 2

inductive ResponseCallback where
  | clusterClientCallback
  | clusterDeviceTxCallback
  deriving DecidableEq, Repr

structure ClientT extends Client where
  responseCallback : Option ResponseCallback

structure ServerT where
  clusterAndCallback : Nat
  endpoint : BitVec 8

inductive IdVariable where
  | clusterRemoteCmdId
  | clusterDeviceCmdId
  | clusterDeviceTxId
  | clusterDeviceRxId
  deriving DecidableEq, Repr

/-- The static variables of the two files, each with an `m_curid`, and the ids. -/
structure Tables where
  clientCurid : ClusterId
  mClient : Table ClientT maxid
  serverCurid : ClusterId
  mServer : Table ServerT maxid
  ids : IdVariable → ClusterId

def noClusters : Tables :=
  ⟨0, fun _ => ⟨⟨0, 0⟩, none⟩, 0, fun _ => ⟨0, 0⟩, fun _ => 0⟩

/-- `zb_cluster_client_alloc`, where `ZbZclClusterAlloc` answers `cluster`. -/
def zbClusterClientAlloc (s : Tables) (endpoint : BitVec 8) (cluster : Nat) :
    Option (ClusterId × Tables) :=
  if maxid ≤ s.clientCurid.toNat then some (invalidid, s)
  else do
    let mClient ← s.mClient.store s.clientCurid.toNat ⟨⟨cluster, endpoint⟩, none⟩
    if cluster = 0 then some (invalidid, { s with mClient := mClient })
    else
      some (s.clientCurid, { s with mClient := mClient, clientCurid := s.clientCurid + 1 })

/-- `zb_cluster_server_alloc`, where `ZbZclClusterAlloc` answers `cluster` and
`ZbZclAttrAppendList` answers `appended`. The pointer to a freed cluster stays in the entry. -/
def zbClusterServerAlloc (s : Tables) (endpoint : BitVec 8) (cluster : Nat)
    (appended : ZclStatusCode) : Option (ClusterId × Tables) :=
  if maxid ≤ s.serverCurid.toNat then some (invalidid, s)
  else do
    let mServer ← s.mServer.store s.serverCurid.toNat ⟨cluster, endpoint⟩
    if cluster = 0 then some (invalidid, { s with mServer := mServer })
    else if appended ≠ zclStatusSuccess then some (invalidid, { s with mServer := mServer })
    else
      some (s.serverCurid, { s with mServer := mServer, serverCurid := s.serverCurid + 1 })

def zbClusterClientSetOnResponseCallback (s : Tables) (id : ClusterId)
    (responseCallback : ResponseCallback) : Option Tables := do
  let client ← s.mClient.load id.toNat
  let mClient ←
    s.mClient.store id.toNat { client with responseCallback := some responseCallback }
  some { s with mClient := mClient }

def zbClusterClientCommand (s : Tables) (id : ClusterId) (dst : ZbApsAddr) (string : List Byte)
    (payload : Payload) : Option Commanded := do
  let client ← s.mClient.load id.toNat
  commandTo client.cluster dst string payload

def zbClusterClientCommandBroadcast (s : Tables) (id : ClusterId) (shortAddr : BitVec 16)
    (string : List Byte) (payload : Payload) : Option Commanded := do
  let client ← s.mClient.load id.toNat
  commandTo client.cluster ⟨zbApsdeAddrmodeShort, client.endpoint.setWidth 16, 0, shortAddr, 0⟩
    string payload

/-! ## Calls and runs -/

structure Text where
  string : List Byte
  text : List Byte
  ends : cString string = some text

inductive Call where
  | clientAlloc (target : Option IdVariable) (endpoint : BitVec 8) (cluster : Nat)
  | serverAlloc (target : Option IdVariable) (endpoint : BitVec 8) (cluster : Nat)
      (appended : ZclStatusCode)
  | setOnResponseCallback (id : IdVariable) (responseCallback : ResponseCallback)
  | command (id : IdVariable) (dst : ZbApsAddr) (string : Text) (payload : Payload)
  | commandBroadcast (id : IdVariable) (shortAddr : BitVec 16) (string : Text) (payload : Payload)

structure Allocation where
  cluster : Nat
  endpoint : BitVec 8
  deriving DecidableEq, Repr

structure Allocations where
  clients : List (Nat × Allocation)
  servers : List (Nat × Allocation)

def noAllocations : Allocations := ⟨[], []⟩

def Tables.assign (s : Tables) (target : Option IdVariable) (id : ClusterId) : Tables :=
  match target with
  | none => s
  | some name => { s with ids := Function.update s.ids name id }

@[simp] theorem assign_same (s : Tables) (name : IdVariable) (id : ClusterId) :
    (s.assign (some name) id).ids name = id := Function.update_self ..

theorem assign_other (s : Tables) {name name' : IdVariable} (other : name ≠ name')
    (id : ClusterId) : (s.assign (some name') id).ids name = s.ids name :=
  Function.update_of_ne other _ _

def recorded (records : List (Nat × Allocation)) (id : ClusterId) (allocation : Allocation) :
    List (Nat × Allocation) :=
  if id = invalidid then records else records ++ [(id.toNat, allocation)]

namespace Call

def perform (s : Tables) (made : Allocations) : Call → Option (Tables × Allocations)
  | clientAlloc target endpoint cluster => do
      let (id, t) ← zbClusterClientAlloc s endpoint cluster
      some (t.assign target id,
        { made with clients := recorded made.clients id ⟨cluster, endpoint⟩ })
  | serverAlloc target endpoint cluster appended => do
      let (id, t) ← zbClusterServerAlloc s endpoint cluster appended
      some (t.assign target id,
        { made with servers := recorded made.servers id ⟨cluster, endpoint⟩ })
  | setOnResponseCallback id responseCallback => do
      let t ← zbClusterClientSetOnResponseCallback s (s.ids id) responseCallback
      some (t, made)
  | command id dst string payload => do
      let _ ← zbClusterClientCommand s (s.ids id) dst string.string payload
      some (s, made)
  | commandBroadcast id shortAddr string payload => do
      let _ ← zbClusterClientCommandBroadcast s (s.ids id) shortAddr string.string payload
      some (s, made)

/-- The variable whose id the call takes as an index of the client table. -/
def index : Call → Option IdVariable
  | clientAlloc .. => none
  | serverAlloc .. => none
  | setOnResponseCallback id _ => some id
  | command id .. => some id
  | commandBroadcast id .. => some id

end Call

structure HandedOut {α : Type} (view : α → Allocation) (table : Table α maxid)
    (records : List (Nat × Allocation)) : Prop where
  distinct : (records.map Prod.fst).Nodup
  below : ∀ record ∈ records, record.1 < maxid
  holds : ∀ record ∈ records, ∃ value, table.load record.1 = some value ∧ view value = record.2

def ClientT.allocation (client : ClientT) : Allocation := ⟨client.cluster, client.endpoint⟩

def ServerT.allocation (server : ServerT) : Allocation :=
  ⟨server.clusterAndCallback, server.endpoint⟩

/-- Both tables hold what was handed out, and only successful allocations used up an id. -/
structure Sound (s : Tables) (made : Allocations) : Prop where
  clients : HandedOut ClientT.allocation s.mClient made.clients
  servers : HandedOut ServerT.allocation s.mServer made.servers
  clientIds : s.clientCurid.toNat = made.clients.length
  serverIds : s.serverCurid.toNat = made.servers.length

/-- The tables are sound all along a run, and every index of the client table is an id that a
successful allocation of a client returned before. -/
def Disciplined : Tables → Allocations → List Call → Prop
  | s, made, [] => Sound s made
  | s, made, call :: rest =>
      Sound s made ∧ (∀ id ∈ call.index, (s.ids id).toNat ∈ made.clients.map Prod.fst) ∧
        ∃ t made', call.perform s made = some (t, made') ∧ Disciplined t made' rest

/-! ## The application -/

inductive Build where
  | remote
  | device
  deriving DecidableEq, Repr

structure StackAnswers where
  client : Nat
  cmdServer : Nat
  cmdAppended : ZclStatusCode
  rxServer : Nat
  rxAppended : ZclStatusCode

/-- `APP_ZIGBEE_ConfigEndpoints`, once the endpoint is added. -/
def appZigbeeConfigEndpoints (answers : StackAnswers) : Build → List Call
  | .remote =>
      [.clientAlloc (some .clusterRemoteCmdId) (sw1Endpoint.setWidth 8) answers.client,
        .setOnResponseCallback .clusterRemoteCmdId .clusterClientCallback]
  | .device =>
      [.serverAlloc (some .clusterDeviceCmdId) (sw1Endpoint.setWidth 8) answers.cmdServer
          answers.cmdAppended,
        .clientAlloc (some .clusterDeviceTxId) (devEndpoint.setWidth 8) answers.client,
        .setOnResponseCallback .clusterDeviceTxId .clusterDeviceTxCallback,
        .serverAlloc (some .clusterDeviceRxId) (devEndpoint.setWidth 8) answers.rxServer
          answers.rxAppended]

/-- The allocations and the later calls: the senders of `app_zigbee.c` command with
`cluster_remote_cmd_id`, those of `app_zigbee_cmd.c` with this id or `cluster_device_tx_id`. -/
inductive AppStep where
  | clientAlloc (endpoint : BitVec 8) (cluster : Nat)
  | serverAlloc (endpoint : BitVec 8) (cluster : Nat) (appended : ZclStatusCode)
  | configEndpoints (answers : StackAnswers)
  | send (dst : ZbApsAddr) (string : Text) (payload : Payload)
  | broadcastC2s (shortAddr : BitVec 16) (string : Text) (payload : Payload)
  | broadcastS2s (shortAddr : BitVec 16) (string : Text) (payload : Payload)

def Granted (taken cluster : Nat) : Prop := taken < maxid ∧ cluster ≠ 0

instance (taken cluster : Nat) : Decidable (Granted taken cluster) := instDecidableAnd

namespace AppStep

def calls (build : Build) : AppStep → List Call
  | clientAlloc endpoint cluster => [.clientAlloc none endpoint cluster]
  | serverAlloc endpoint cluster appended => [.serverAlloc none endpoint cluster appended]
  | configEndpoints answers => appZigbeeConfigEndpoints answers build
  | send dst string payload => [.command .clusterRemoteCmdId dst string payload]
  | broadcastC2s shortAddr string payload =>
      [.commandBroadcast .clusterRemoteCmdId shortAddr string payload]
  | broadcastS2s shortAddr string payload =>
      [.commandBroadcast .clusterDeviceTxId shortAddr string payload]

def taken (before : Nat) : AppStep → Nat
  | clientAlloc _ cluster => if Granted before cluster then before + 1 else before
  | configEndpoints answers => if Granted before answers.client then before + 1 else before
  | _ => before

/-- The endpoints are configured while a client can be allocated, and nothing is sent before. -/
def Fits (before : Nat) : AppStep → Prop
  | configEndpoints answers => Granted before answers.client
  | send .. => before ≠ 0
  | broadcastC2s .. => before ≠ 0
  | broadcastS2s .. => before ≠ 0
  | _ => True

end AppStep

def AllFit : Nat → List AppStep → Prop
  | _, [] => True
  | before, step :: rest => step.Fits before ∧ AllFit (step.taken before) rest

/-! ## One call -/

section Calls

variable {s t u : Tables} {made made' made'' : Allocations} {taken : Nat}

structure Kept (s : Tables) (made : Allocations) (taken : Nat) : Prop where
  clientIds : s.clientCurid.toNat = taken
  clients : Ledger.Keeps ClientT.allocation s.mClient taken made.clients
  servers : Ledger.Keeps ServerT.allocation s.mServer s.serverCurid.toNat made.servers

def IdVariable.OfClient : IdVariable → Prop
  | clusterRemoteCmdId => True
  | clusterDeviceTxId => True
  | _ => False

structure Tracks (s : Tables) (made : Allocations) (taken : Nat) : Prop
    extends Kept s made taken where
  current : ∀ name, name.OfClient → s.ids name = 0 ∨ (s.ids name).toNat < taken

theorem tracks_none : Tracks noClusters noAllocations 0 := by
  constructor
  · exact ⟨rfl, Ledger.keeps_nil _ _, Ledger.keeps_nil _ _⟩
  · exact fun _ _ => Or.inl rfl

theorem handedOut_of_keeps {α : Type} {view : α → Allocation} {table : Table α maxid} {next : Nat}
    {records : List (Nat × Allocation)} (keeps : Ledger.Keeps view table next records) :
    HandedOut view table records := by
  constructor
  · exact keeps.nodup
  · exact fun record member => Nat.lt_of_lt_of_le (keeps.below member) keeps.room
  · exact keeps.kept

theorem Kept.sound (kept : Kept s made taken) : Sound s made := by
  constructor
  · exact handedOut_of_keeps kept.clients
  · exact handedOut_of_keeps kept.servers
  · exact kept.clientIds.trans kept.clients.length.symm
  · exact kept.servers.length.symm

theorem Kept.assign (kept : Kept s made taken) (target : Option IdVariable) (id : ClusterId) :
    Kept (s.assign target id) made taken := by
  cases target <;> exact ⟨kept.clientIds, kept.clients, kept.servers⟩

theorem Tracks.assign {target : Option IdVariable} {id : ClusterId} (tracks : Tracks s made taken)
    (fresh : ∀ name ∈ target, name.OfClient → id.toNat < taken) :
    Tracks (s.assign target id) made taken := by
  refine ⟨tracks.toKept.assign target id, fun name client => ?_⟩
  cases target with
  | none => exact tracks.current name client
  | some name' =>
      by_cases same : name = name'
      · subst same
        rw [assign_same]
        exact Or.inr (fresh name rfl client)
      · rw [assign_other s same]
        exact tracks.current name client

theorem Tracks.allocated {taken' : Nat} (tracks : Tracks s made taken) (kept : Kept t made' taken')
    (ids : t.ids = s.ids) (more : taken ≤ taken') : Tracks t made' taken' := by
  refine ⟨kept, fun name client => ?_⟩
  rw [ids]
  rcases tracks.current name client with initial | below
  · exact Or.inl initial
  · exact Or.inr (Nat.lt_of_lt_of_le below more)

theorem ne_invalidid {id : ClusterId} (small : id.toNat < maxid) : id ≠ invalidid := by
  intro same
  subst same
  revert small
  decide

theorem curid_succ {curid : ClusterId} (small : curid.toNat < maxid) :
    (curid + 1).toNat = curid.toNat + 1 := by
  have bound : curid.toNat + 1 < 2 ^ 16 := by
    have limit : maxid + 1 < 2 ^ 16 := by decide
    omega
  rw [BitVec.toNat_add]
  exact Nat.mod_eq_of_lt bound

/-- An allocation of a client: an id is handed out, or the tables stay the ledgers they were. -/
theorem clientAlloc_kept (kept : Kept s made taken) (endpoint : BitVec 8) (cluster : Nat) :
    ∃ id t, zbClusterClientAlloc s endpoint cluster = some (id, t) ∧ t.ids = s.ids ∧
      Kept t { made with clients := recorded made.clients id ⟨cluster, endpoint⟩ }
        (if Granted taken cluster then taken + 1 else taken) ∧
      (Granted taken cluster → id.toNat = taken) ∧ (¬ Granted taken cluster → id = invalidid) := by
  rcases kept with ⟨rfl, clients, servers⟩
  by_cases full : maxid ≤ s.clientCurid.toNat
  · have refused : ¬ Granted s.clientCurid.toNat cluster :=
      fun granted => Nat.not_lt.mpr full granted.1
    rw [if_neg refused]
    refine ⟨invalidid, s, if_pos full, rfl, ?_, fun granted => absurd granted refused, fun _ => rfl⟩
    exact ⟨rfl, clients, servers⟩
  · have room : s.clientCurid.toNat < maxid := Nat.not_le.mp full
    rcases Table.store_of_lt s.mClient room ⟨⟨cluster, endpoint⟩, none⟩ with ⟨mClient, stored⟩
    by_cases failed : cluster = 0
    · have refused : ¬ Granted s.clientCurid.toNat cluster := fun granted => granted.2 failed
      rw [if_neg refused]
      refine ⟨invalidid, { s with mClient := mClient }, ?_, rfl, ?_,
        fun granted => absurd granted refused, fun _ => rfl⟩
      · simp only [zbClusterClientAlloc, if_neg full, stored, Option.bind_eq_bind, Option.bind_some,
          if_pos failed]
      · exact ⟨rfl, clients.draft stored, servers⟩
    · have granted : Granted s.clientCurid.toNat cluster := ⟨room, failed⟩
      rw [if_pos granted]
      refine ⟨s.clientCurid,
        { s with mClient := mClient, clientCurid := s.clientCurid + 1 }, ?_, rfl, ?_, fun _ => rfl,
        fun refused => absurd granted refused⟩
      · simp only [zbClusterClientAlloc, if_neg full, stored, Option.bind_eq_bind, Option.bind_some,
          if_neg failed]
      · rw [recorded, if_neg (ne_invalidid room)]
        exact ⟨curid_succ room, (clients.draft stored).issue (Table.load_stored stored), servers⟩

theorem serverAlloc_kept (kept : Kept s made taken) (endpoint : BitVec 8) (cluster : Nat)
    (appended : ZclStatusCode) :
    ∃ id t, zbClusterServerAlloc s endpoint cluster appended = some (id, t) ∧ t.ids = s.ids ∧
      Kept t { made with servers := recorded made.servers id ⟨cluster, endpoint⟩ } taken := by
  rcases kept with ⟨clientIds, clients, servers⟩
  by_cases full : maxid ≤ s.serverCurid.toNat
  · exact ⟨invalidid, s, if_pos full, rfl, clientIds, clients, servers⟩
  · have room : s.serverCurid.toNat < maxid := Nat.not_le.mp full
    rcases Table.store_of_lt s.mServer room ⟨cluster, endpoint⟩ with ⟨mServer, stored⟩
    have drafted := servers.draft stored
    simp only [zbClusterServerAlloc, if_neg full, stored, Option.bind_eq_bind, Option.bind_some]
    by_cases failed : cluster = 0
    · rw [if_pos failed]
      exact ⟨_, _, rfl, rfl, clientIds, clients, drafted⟩
    · rw [if_neg failed]
      by_cases detached : appended ≠ zclStatusSuccess
      · rw [if_pos detached]
        exact ⟨_, _, rfl, rfl, clientIds, clients, drafted⟩
      · rw [if_neg detached]
        refine ⟨_, _, rfl, rfl, clientIds, clients, ?_⟩
        rw [recorded, if_neg (ne_invalidid room), curid_succ room]
        exact drafted.issue (Table.load_stored stored)

theorem register_tracks (tracks : Tracks s made taken) {id : ClusterId} (inside : id.toNat < taken)
    (responseCallback : ResponseCallback) :
    ∃ t, zbClusterClientSetOnResponseCallback s id responseCallback = some t ∧
      Tracks t made taken := by
  rcases tracks with ⟨⟨clientIds, clients, servers⟩, current⟩
  have room : id.toNat < maxid := Nat.lt_of_lt_of_le inside clients.room
  have present : s.mClient.load id.toNat = some (s.mClient ⟨id.toNat, room⟩) :=
    Table.load_of_lt room
  rcases Table.store_of_lt s.mClient room
    { s.mClient ⟨id.toNat, room⟩ with responseCallback := some responseCallback }
    with ⟨mClient, stored⟩
  refine ⟨{ s with mClient := mClient }, ?_,
    ⟨clientIds, clients.revise present stored rfl, servers⟩, current⟩
  simp only [zbClusterClientSetOnResponseCallback, present, stored, Option.bind_eq_bind,
    Option.bind_some]

theorem commandTo_total (cluster : Nat) (dst : ZbApsAddr) (string : Text) (payload : Payload) :
    ∃ commanded, commandTo cluster dst string.string payload = some commanded := by
  by_cases short : (BitVec.ofNat 16 string.text.length).toNat ≤ 2048
  · rcases command_sends string.ends cluster dst payload short with ⟨req, sends, _, _⟩
    exact ⟨_, sends⟩
  · refine ⟨⟨zclStatusInvalidValue, []⟩, ?_⟩
    simp only [commandTo, string.ends, Option.bind_eq_bind, Option.bind_some, Nat.not_le.mp short,
      ↓reduceIte]

/-! ## Calls of a run -/

def Passes (s : Tables) (made : Allocations) (calls : List Call) (t : Tables)
    (made' : Allocations) : Prop :=
  ∀ rest, Disciplined s made (calls ++ rest) ↔ Disciplined t made' rest

theorem passes_nil (s : Tables) (made : Allocations) : Passes s made [] s made :=
  fun _ => Iff.rfl

theorem Passes.cons {call : Call} {calls : List Call} (passes : Passes t made' calls u made'')
    (sound : Sound s made)
    (indexed : ∀ id ∈ call.index, (s.ids id).toNat ∈ made.clients.map Prod.fst)
    (performed : call.perform s made = some (t, made')) :
    Passes s made (call :: calls) u made'' := by
  intro rest
  rw [← passes rest]
  constructor
  · intro holds
    rcases holds with ⟨_, _, t', made₁, performed', later⟩
    cases performed.symm.trans performed'
    exact later
  · exact fun later => ⟨sound, indexed, t, made', performed, later⟩

theorem misused {call : Call} {rest : List Call} {id : IdVariable} (kept : Kept s made taken)
    (used : call.index = some id) (outside : taken ≤ (s.ids id).toNat) :
    ¬ Disciplined s made (call :: rest) := by
  intro holds
  rcases holds with ⟨_, indexed, _⟩
  exact Nat.not_lt.mpr outside (kept.clients.mem_ids.mp (indexed id used))

theorem Passes.trans {first second : List Call} (passes : Passes s made first t made')
    (passes' : Passes t made' second u made'') : Passes s made (first ++ second) u made'' := by
  intro rest
  calc
    Disciplined s made (first ++ second ++ rest) ↔
      Disciplined s made (first ++ (second ++ rest)) := by
      rw [List.append_assoc]
    _ ↔ Disciplined t made' (second ++ rest) := passes (second ++ rest)
    _ ↔ Disciplined u made'' rest := passes' rest

theorem serverAlloc_passes (tracks : Tracks s made taken) {target : Option IdVariable}
    (server : ∀ name ∈ target, ¬ name.OfClient) (endpoint : BitVec 8) (cluster : Nat)
    (appended : ZclStatusCode) : ∃ t made', Tracks t made' taken ∧
      Passes s made [.serverAlloc target endpoint cluster appended] t made' := by
  rcases serverAlloc_kept tracks.toKept endpoint cluster appended with ⟨id, t, allocated, ids, kept⟩
  have tracks' := tracks.allocated kept ids (Nat.le_refl _)
  refine ⟨t.assign target id, _,
    tracks'.assign fun name named client => absurd client (server name named), ?_⟩
  apply (passes_nil _ _).cons tracks.sound
  · intro id indexed
    cases indexed
  · simp only [Call.perform, allocated, Option.bind_eq_bind, Option.bind_some]

theorem server_target (name : IdVariable) (server : ¬ name.OfClient) :
    ∀ name' ∈ some name, ¬ name'.OfClient := by
  intro name' named
  obtain rfl := Option.some.inj named
  exact server

theorem clientAlloc_passes (tracks : Tracks s made taken) (endpoint : BitVec 8) (cluster : Nat) :
    ∃ t made', Tracks t made' (if Granted taken cluster then taken + 1 else taken) ∧
      Passes s made [.clientAlloc none endpoint cluster] t made' := by
  rcases clientAlloc_kept tracks.toKept endpoint cluster with ⟨id, t, allocated, ids, kept, _, _⟩
  have more : taken ≤ if Granted taken cluster then taken + 1 else taken := by
    split
    · exact Nat.le_succ taken
    · exact Nat.le_refl taken
  refine ⟨t, _, tracks.allocated kept ids more, ?_⟩
  apply (passes_nil _ _).cons tracks.sound
  · intro id indexed
    cases indexed
  · simp only [Call.perform, allocated, Option.bind_eq_bind, Option.bind_some, Tables.assign]

theorem register_passes (tracks : Tracks s made taken) {cluster : Nat}
    (granted : Granted taken cluster) (name : IdVariable) (endpoint : BitVec 8)
    (responseCallback : ResponseCallback) : ∃ t made', Tracks t made' (taken + 1) ∧
      Passes s made [.clientAlloc (some name) endpoint cluster,
        .setOnResponseCallback name responseCallback] t made' := by
  rcases clientAlloc_kept tracks.toKept endpoint cluster with
    ⟨id, t, allocated, ids, kept, fresh, _⟩
  rw [if_pos granted] at kept
  have inside : id.toNat < taken + 1 := Nat.lt_succ_of_le (fresh granted).le
  have tracks' : Tracks (t.assign (some name) id) _ (taken + 1) :=
    (tracks.allocated kept ids (Nat.le_succ taken)).assign fun _ _ _ => inside
  rcases register_tracks tracks' inside responseCallback with ⟨u, registered, tracks''⟩
  have asks_nothing : ∀ id ∈ (Call.clientAlloc (some name) endpoint cluster).index,
      (s.ids id).toNat ∈ made.clients.map Prod.fst := by
    intro id indexed
    cases indexed
  have allocates : (Call.clientAlloc (some name) endpoint cluster).perform s made =
      some (t.assign (some name) id,
        { made with clients := recorded made.clients id ⟨cluster, endpoint⟩ }) := by
    simp only [Call.perform, allocated, Option.bind_eq_bind, Option.bind_some]
  refine ⟨u, _, tracks'', Passes.cons ?_ tracks.sound asks_nothing allocates⟩
  apply (passes_nil _ _).cons tracks'.sound
  · intro name' indexed
    obtain rfl := Option.some.inj indexed
    rw [assign_same]
    exact tracks'.clients.mem_ids.mpr inside
  · simp only [Call.perform, assign_same, registered, Option.bind_eq_bind, Option.bind_some]

theorem register_misused (tracks : Tracks s made taken) {cluster : Nat}
    (refused : ¬ Granted taken cluster) (name : IdVariable) (endpoint : BitVec 8)
    (responseCallback : ResponseCallback) (rest : List Call) :
    ¬ Disciplined s made (.clientAlloc (some name) endpoint cluster ::
      .setOnResponseCallback name responseCallback :: rest) := by
  rcases clientAlloc_kept tracks.toKept endpoint cluster with
    ⟨id, t, allocated, ids, kept, _, invalid⟩
  rw [if_neg refused] at kept
  intro holds
  rcases holds with ⟨_, _, t', made', performed, later⟩
  simp only [Call.perform, allocated, Option.bind_eq_bind, Option.bind_some] at performed
  cases performed
  refine misused (kept.assign (some name) id) rfl ?_ later
  have limit : maxid ≤ invalidid.toNat := by decide
  rw [assign_same, invalid refused]
  exact Nat.le_trans kept.clients.room limit

theorem send_passes (tracks : Tracks s made taken) (real : taken ≠ 0) (name : IdVariable)
    (client : name.OfClient) {call : Call} (used : call.index = some name)
    (performed : (s.ids name).toNat < maxid → call.perform s made = some (s, made)) :
    Passes s made [call] s made := by
  have inside : (s.ids name).toNat < taken := by
    rcases tracks.current name client with initial | below
    · rw [initial]
      exact Nat.pos_of_ne_zero real
    · exact below
  apply (passes_nil _ _).cons tracks.sound
  · intro name' indexed
    obtain rfl := Option.some.inj (used.symm.trans indexed)
    exact tracks.clients.mem_ids.mpr inside
  · exact performed (Nat.lt_of_lt_of_le inside tracks.clients.room)

theorem command_performed (made : Allocations) {name : IdVariable}
    (inside : (s.ids name).toNat < maxid) (dst : ZbApsAddr) (string : Text) (payload : Payload) :
    (Call.command name dst string payload).perform s made = some (s, made) := by
  rcases commandTo_total (s.mClient ⟨_, inside⟩).cluster dst string payload with ⟨commanded, total⟩
  simp only [Call.perform, zbClusterClientCommand, Table.load_of_lt inside, total,
    Option.bind_eq_bind, Option.bind_some]

theorem broadcast_performed (made : Allocations) {name : IdVariable}
    (inside : (s.ids name).toNat < maxid) (shortAddr : BitVec 16) (string : Text)
    (payload : Payload) :
    (Call.commandBroadcast name shortAddr string payload).perform s made = some (s, made) := by
  rcases commandTo_total (s.mClient ⟨_, inside⟩).cluster ⟨zbApsdeAddrmodeShort,
    (s.mClient ⟨_, inside⟩).endpoint.setWidth 16, 0, shortAddr, 0⟩ string payload
    with ⟨commanded, total⟩
  simp only [Call.perform, zbClusterClientCommandBroadcast, Table.load_of_lt inside, total,
    Option.bind_eq_bind, Option.bind_some]

end Calls

/-! ## Steps of the application -/

section Steps

variable {s : Tables} {made : Allocations} {taken : Nat}

theorem step_passes (tracks : Tracks s made taken) (build : Build) {step : AppStep}
    (fits : step.Fits taken) : ∃ t made', Tracks t made' (step.taken taken) ∧
      Passes s made (step.calls build) t made' := by
  cases step with
  | clientAlloc endpoint cluster => exact clientAlloc_passes tracks endpoint cluster
  | serverAlloc endpoint cluster appended =>
      apply serverAlloc_passes tracks
      intro name named
      cases named
  | configEndpoints answers =>
      have granted : Granted taken answers.client := fits
      rw [AppStep.taken, if_pos granted]
      cases build with
      | remote => exact register_passes tracks granted _ _ _
      | device =>
          rcases serverAlloc_passes tracks (server_target .clusterDeviceCmdId not_false)
            (sw1Endpoint.setWidth 8) answers.cmdServer answers.cmdAppended
            with ⟨t, made₁, tracks₁, passes₁⟩
          rcases register_passes tracks₁ granted .clusterDeviceTxId (devEndpoint.setWidth 8)
            .clusterDeviceTxCallback with ⟨u, made₂, tracks₂, passes₂⟩
          rcases serverAlloc_passes tracks₂ (server_target .clusterDeviceRxId not_false)
            (devEndpoint.setWidth 8) answers.rxServer answers.rxAppended
            with ⟨v, made₃, tracks₃, passes₃⟩
          exact ⟨v, made₃, tracks₃, (passes₁.trans passes₂).trans passes₃⟩
  | send dst string payload =>
      refine ⟨s, made, tracks, send_passes tracks fits .clusterRemoteCmdId trivial rfl ?_⟩
      exact fun inside => command_performed made inside dst string payload
  | broadcastC2s shortAddr string payload =>
      refine ⟨s, made, tracks, send_passes tracks fits .clusterRemoteCmdId trivial rfl ?_⟩
      exact fun inside => broadcast_performed made inside shortAddr string payload
  | broadcastS2s shortAddr string payload =>
      refine ⟨s, made, tracks, send_passes tracks fits .clusterDeviceTxId trivial rfl ?_⟩
      exact fun inside => broadcast_performed made inside shortAddr string payload

theorem step_misused (tracks : Tracks s made taken) (build : Build) {step : AppStep}
    (misfit : ¬ step.Fits taken) (rest : List Call) :
    ¬ Disciplined s made (step.calls build ++ rest) := by
  have unsent : taken = 0 → ∀ {call : Call} {name : IdVariable}, call.index = some name →
      ¬ Disciplined s made (call :: rest) := by
    intro none_taken call name used
    exact misused tracks.toKept used (none_taken ▸ Nat.zero_le _)
  cases step with
  | clientAlloc endpoint cluster => exact absurd trivial misfit
  | serverAlloc endpoint cluster appended => exact absurd trivial misfit
  | configEndpoints answers =>
      have refused : ¬ Granted taken answers.client := misfit
      cases build with
      | remote => exact register_misused tracks refused _ _ _ rest
      | device =>
          rcases serverAlloc_passes tracks (server_target .clusterDeviceCmdId not_false)
            (sw1Endpoint.setWidth 8) answers.cmdServer answers.cmdAppended
            with ⟨t, made', tracks', passes⟩
          intro holds
          exact register_misused tracks' refused _ _ _ _ ((passes _).mp holds)
  | send dst string payload => exact unsent (Classical.not_not.mp misfit) rfl
  | broadcastC2s shortAddr string payload => exact unsent (Classical.not_not.mp misfit) rfl
  | broadcastS2s shortAddr string payload => exact unsent (Classical.not_not.mp misfit) rfl

private theorem disciplined_iff_fits (tracks : Tracks s made taken) (build : Build)
    (steps : List AppStep) :
    Disciplined s made (steps.flatMap (AppStep.calls build)) ↔ AllFit taken steps := by
  induction steps generalizing s made taken with
  | nil => exact ⟨fun _ => trivial, fun _ => tracks.sound⟩
  | cons step rest ih =>
      rw [List.flatMap_cons, AllFit]
      by_cases fits : step.Fits taken
      · rcases step_passes tracks build fits with ⟨t, made', tracks', passes⟩
        rw [passes, ih tracks']
        exact ⟨fun later => ⟨fits, later⟩, fun both => both.2⟩
      · constructor
        · exact fun holds => absurd holds (step_misused tracks build fits _)
        · exact fun both => absurd both.1 fits

/-- In both builds, for every order of allocations, configurations and commands and all answers
of the stack: the tables hold what was handed out and only these ids are used exactly as long as
each configuration finds a client to allocate and nothing is sent before the first one. -/
theorem cluster_ids_disciplined_iff (build : Build) (steps : List AppStep) :
    Disciplined noClusters noAllocations (steps.flatMap (AppStep.calls build)) ↔
      AllFit 0 steps :=
  disciplined_iff_fits tracks_none build steps

/-- The stack has no cluster for the client of the remote control: the callback is stored
outside the table. -/
theorem refused_client_registered :
    ¬ Disciplined noClusters noAllocations
      ([AppStep.configEndpoints ⟨0, 0, 0, 0, 0⟩].flatMap (AppStep.calls .remote)) := by
  intro holds
  rcases (disciplined_iff_fits tracks_none _ _).mp holds with ⟨granted, _⟩
  exact granted.2 rfl

end Steps

end Baelux.Zigbee.ClusterTables
